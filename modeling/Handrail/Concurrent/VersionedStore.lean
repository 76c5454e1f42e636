import Mathlib.Order.Basic
import Mathlib.Tactic.Common

/-!
# A store of versioned documents

Documents are created once and replaced by compare-and-set: a write names the version it has seen,
and succeeds when that is still the current one. Versions only grow, so a document that was seen
at the current version is the current document.
-/

namespace Concurrent

structure Versioned (ρ : Type) where
  version : Nat
  record : ρ
deriving DecidableEq

variable {κ τ ρ : Type}

inductive StoreCall (κ τ ρ : Type) where
  | load (key : κ)
  | create (key : κ) (record : ρ)
  /-- A replacement, with a word for what it is for. -/
  | write (tag : τ) (key : κ) (expected : Nat) (record : ρ)

/-- A creation answers the document and whether it is new, a write the document that it left or a conflict. -/
def StoreReply : StoreCall κ τ ρ → Type
  | .load _ => Option (Versioned ρ)
  | .create _ _ => Bool × Versioned ρ
  | .write _ _ _ _ => Option (Versioned ρ)

abbrev Documents (κ ρ : Type) := κ → Option (Versioned ρ)

variable [DecidableEq κ]

def Documents.put (s : Documents κ ρ) (key : κ) (document : Versioned ρ) : Documents κ ρ :=
  fun k => if k = key then some document else s k

@[simp] theorem Documents.put_self (s : Documents κ ρ) (key : κ) (document : Versioned ρ) :
    s.put key document key = some document := if_pos rfl

theorem Documents.put_other (s : Documents κ ρ) {key k : κ} (document : Versioned ρ) (other : k ≠ key) :
    s.put key document k = s k := if_neg other

def performStoreCall : (op : StoreCall κ τ ρ) → Documents κ ρ → Documents κ ρ × StoreReply op
  | .load key, s => (s, s key)
  | .create key record, s =>
    match s key with
    | some current => (s, (false, current))
    | none => (s.put key ⟨1, record⟩, (true, ⟨1, record⟩))
  | .write _ key expected record, s =>
    match s key with
    | some current =>
      if current.version = expected then
        (s.put key ⟨current.version + 1, record⟩, some ⟨current.version + 1, record⟩)
      else (s, none)
    | none => (s, none)

/-! ### Later states -/

def Later (R : ρ → ρ → Prop) (s t : Documents κ ρ) : Prop :=
  ∀ key d, s key = some d → ∃ e, t key = some e ∧ d.version ≤ e.version ∧ (e.version = d.version → e = d) ∧
    R d.record e.record

variable {R : ρ → ρ → Prop} {s t u : Documents κ ρ}

omit [DecidableEq κ] in
theorem Later.refl (refl : ∀ r, R r r) (s : Documents κ ρ) : Later R s s :=
  fun _ d at_ => ⟨d, at_, Nat.le_refl _, fun _ => rfl, refl _⟩

omit [DecidableEq κ] in
theorem Later.trans (trans : ∀ {a b c}, R a b → R b c → R a c) (st : Later R s t) (tu : Later R t u) : Later R s u := by
  intro key d at_
  obtain ⟨e, here, le, same, related⟩ := st key d at_
  obtain ⟨f, there, le', same', related'⟩ := tu key e here
  refine ⟨f, there, Nat.le_trans le le', fun equal => ?_, trans related related'⟩
  have both : e.version = d.version := by omega
  rw [same' (by omega), same both]

omit [DecidableEq κ] in
theorem Later.weaken (later : Later R s t) : Later (fun _ _ => True) s t := by
  intro key d at_
  obtain ⟨e, here, le, same, _⟩ := later key d at_
  exact ⟨e, here, le, same, trivial⟩

theorem Later.put (refl : ∀ r, R r r) {key : κ} {d : Versioned ρ} (current : s key = some d) {record : ρ}
    (related : R d.record record) : Later R s (s.put key ⟨d.version + 1, record⟩) := by
  intro k e at_
  by_cases here : k = key
  · subst here
    obtain rfl := Option.some.inj (current.symm.trans at_)
    exact ⟨_, Documents.put_self .., Nat.le_succ _, fun equal => by simp at equal, related⟩
  · exact ⟨e, (Documents.put_other s _ here).trans at_, Nat.le_refl _, fun _ => rfl, refl _⟩

theorem Later.create (refl : ∀ r, R r r) {key : κ} (absent : s key = none) (document : Versioned ρ) :
    Later R s (s.put key document) := by
  intro k e at_
  by_cases here : k = key
  · rw [here, absent] at at_
    cases at_
  · exact ⟨e, (Documents.put_other s _ here).trans at_, Nat.le_refl _, fun _ => rfl, refl _⟩

theorem write_cases (later : Later R s t) {key : κ} {d : Versioned ρ} (loaded : s key = some d) (tag : τ) (record : ρ) :
    performStoreCall (.write tag key d.version record) t = (t, none) ∨
    (t key = some d ∧ performStoreCall (.write tag key d.version record) t =
      (t.put key ⟨d.version + 1, record⟩, some ⟨d.version + 1, record⟩)) := by
  obtain ⟨e, current, _, same, _⟩ := later key d loaded
  unfold performStoreCall
  simp only [current]
  split
  · rename_i equal
    obtain rfl := same equal
    exact .inr ⟨rfl, rfl⟩
  · exact .inl rfl

theorem create_cases (s : Documents κ ρ) (key : κ) (record : ρ) :
    (∃ current, s key = some current ∧
      performStoreCall (.create key record : StoreCall κ τ ρ) s = (s, (false, current))) ∨
    (s key = none ∧ performStoreCall (.create key record : StoreCall κ τ ρ) s =
      (s.put key ⟨1, record⟩, (true, ⟨1, record⟩))) := by
  unfold performStoreCall
  cases at_ : s key with
  | some current =>
    refine .inl ⟨current, rfl, ?_⟩
    simp only [at_]
    rfl
  | none =>
    refine .inr ⟨rfl, ?_⟩
    simp only [at_]
    rfl

theorem forall_put {P : κ → ρ → Prop} {key : κ} {document : Versioned ρ} (old : ∀ k d, s k = some d → P k d.record)
    (new : P key document.record) : ∀ k d, s.put key document k = some d → P k d.record := by
  intro k d at_
  by_cases here : k = key
  · rw [here, Documents.put_self] at at_
    obtain rfl := Option.some.inj at_
    exact here ▸ new
  · exact old k d ((Documents.put_other s _ here).symm.trans at_)

end Concurrent

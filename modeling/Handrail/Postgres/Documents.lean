import Handrail.Concurrent.VersionedStore
import Handrail.Js.Number
import Handrail.Js.Utf8Reading

/-!
# Documents in Postgres

`PostgresAiPersistence` keeps versioned JSON documents. A `jsonb` column answers the JSON it was given,
so a document is a value of its kind's type, and it refuses a JSON text with a NUL or a surrogate that stands
alone. Transactions are serializable: each call is one step.
-/

namespace Handrail.Postgres
open Js Concurrent

/-- What the persistence throws: a `TypeError` about an argument, a `PostgresPersistenceConflictError`, or the
error of a query. -/
inductive PersistenceError where
  | invalid (field : JsString)
  | conflict
  | query
deriving DecidableEq, Repr

inductive Fault where
  | none
  | before
  | after
deriving DecidableEq, Repr

abbrev Persisted := Except PersistenceError

/-- The condition of `id`. -/
def isId (value : JsString) : Bool := value.length != 0 && decide (value.length ≤ 256) && !value.units.contains 0

/-- `id` -/
def checkId (value field : JsString) : Persisted JsString := if isId value then .ok value else .error (.invalid field)

/-- `version` -/
def checkVersion (value : Option Nat) (field : JsString) : Persisted (Option Nat) :=
  if value.all fun n => decide (1 ≤ n) && decide (n ≤ JsNumber.maxSafeInteger) then .ok value else .error (.invalid field)

structure DocumentKey where
  tenantId : JsString
  scopeId : JsString
  recordId : JsString
deriving DecidableEq

/-- `id` of each part. -/
def DocumentKey.check (key : DocumentKey) : Persisted DocumentKey := do
  let tenantId ← checkId key.tenantId (js "tenantId")
  let scopeId ← checkId key.scopeId (js "scopeId")
  let recordId ← checkId key.recordId (js "recordId")
  return { tenantId, scopeId, recordId }

def DocumentKey.isValid (key : DocumentKey) : Bool := isId key.tenantId && isId key.scopeId && isId key.recordId

variable {ρ : Type}

abbrev Table (ρ : Type) := Documents DocumentKey ρ

/-- A text that `jsonb` takes. -/
def isJsonbText (text : JsString) : Bool := paired text.units && !text.units.contains 0

def getDocument (table : Table ρ) (key : DocumentKey) : Persisted (Option (Versioned ρ)) := do
  let key ← key.check
  return table key

/-- `compareAndSetDocument`, where `jsonb` tells which documents the column takes. -/
def compareAndSetDocument (jsonb : ρ → Bool) (table : Table ρ) (key : DocumentKey) (expectedVersion : Option Nat)
    (value : ρ) : Persisted (Table ρ × Versioned ρ) := do
  let key ← key.check
  let expected ← checkVersion expectedVersion (js "expectedVersion")
  let actual := (table key).map Versioned.version
  if actual ≠ expected then throw .conflict
  if !jsonb value then throw .query
  let next := actual.getD 0 + 1
  return (table.put key ⟨next, value⟩, ⟨next, value⟩)

/-! ### Calls on valid keys -/

theorem guard_bind {α : Type} {p : Prop} [Decidable p] {next : Option α} {a : α} :
    ((guard p : Option Unit) >>= fun _ => next) = some a ↔ p ∧ next = some a := by
  by_cases holds : p <;> simp [holds, guard]

section
variable {table : Table ρ} {key : DocumentKey}

theorem DocumentKey.check_valid (valid : key.isValid = true) : key.check = .ok key := by
  simp only [DocumentKey.isValid, Bool.and_eq_true] at valid
  obtain ⟨⟨tenant, scope⟩, record⟩ := valid
  simp [DocumentKey.check, checkId, tenant, scope, record, bind, Except.bind, pure, Except.pure]

theorem DocumentKey.check_invalid (invalid : key.isValid = false) : ∃ field, key.check = .error (.invalid field) := by
  unfold DocumentKey.check checkId
  by_cases tenant : isId key.tenantId = true
  · by_cases scope : isId key.scopeId = true
    · have record : ¬isId key.recordId = true := by simpa [DocumentKey.isValid, tenant, scope] using invalid
      exact ⟨_, by simp [tenant, scope, record, bind, Except.bind]; rfl⟩
    · exact ⟨_, by simp [tenant, scope, bind, Except.bind]; rfl⟩
  · exact ⟨_, by simp [tenant, bind, Except.bind]; rfl⟩

theorem getDocument_valid (valid : key.isValid = true) : getDocument table key = .ok (table key) := by
  rw [getDocument, DocumentKey.check_valid valid]
  rfl

/-- A write at the version that was read succeeds, unless that version is no safe integer or the column refuses. -/
theorem compareAndSet_current {jsonb : ρ → Bool} (table : Table ρ) {value : ρ} (valid : key.isValid = true)
    (taken : jsonb value = true)
    (safe : ∀ d, table key = some d → 1 ≤ d.version ∧ d.version ≤ JsNumber.maxSafeInteger) :
    compareAndSetDocument jsonb table key ((table key).map Versioned.version) value =
      .ok (table.put key ⟨((table key).map Versioned.version).getD 0 + 1, value⟩,
        ⟨((table key).map Versioned.version).getD 0 + 1, value⟩) := by
  have checked : checkVersion ((table key).map Versioned.version) (js "expectedVersion") =
      .ok ((table key).map Versioned.version) := by
    rw [checkVersion, if_pos]
    cases found : table key with
    | none => rfl
    | some d =>
      obtain ⟨positive, bounded⟩ := safe d found
      simp [positive, bounded]
  simp [compareAndSetDocument, DocumentKey.check_valid valid, checked, taken, bind, Except.bind, pure, Except.pure]

/-- What the column refuses is not written, and the error is not that of a conflict. -/
theorem compareAndSet_refused {jsonb : ρ → Bool} (table : Table ρ) {value : ρ} (refused : jsonb value = false) :
    ∃ e, compareAndSetDocument jsonb table key ((table key).map Versioned.version) value = .error e ∧ e ≠ .conflict := by
  cases valid : key.isValid with
  | false =>
    obtain ⟨field, checked⟩ := DocumentKey.check_invalid valid
    exact ⟨.invalid field, by rw [compareAndSetDocument, checked]; rfl, by simp⟩
  | true =>
    by_cases safe : ((table key).map Versioned.version).all fun n => decide (1 ≤ n) && decide (n ≤ JsNumber.maxSafeInteger)
    · refine ⟨.query, ?_, by simp⟩
      simp only [compareAndSetDocument, DocumentKey.check_valid valid, checkVersion, if_pos safe]
      simp [refused, bind, Except.bind, throw, throwThe, MonadExceptOf.throw]
    · refine ⟨.invalid (js "expectedVersion"), ?_, by simp⟩
      simp only [compareAndSetDocument, DocumentKey.check_valid valid, checkVersion, if_neg safe]
      rfl

theorem compareAndSet_unsafe (jsonb : ρ → Bool) (table : Table ρ) (value : ρ) {version : Nat}
    (valid : key.isValid = true) (above : JsNumber.maxSafeInteger < version) :
    compareAndSetDocument jsonb table key (some version) value = .error (.invalid (js "expectedVersion")) := by
  have large : ¬version ≤ JsNumber.maxSafeInteger := by omega
  simp [compareAndSetDocument, DocumentKey.check_valid valid, checkVersion, large, bind, Except.bind]

theorem compareAndSet_cases (jsonb : ρ → Bool) (table : Table ρ) (key : DocumentKey) (expectedVersion : Option Nat) (value : ρ) :
    (∃ e, compareAndSetDocument jsonb table key expectedVersion value = .error e) ∨
    (key.isValid = true ∧ (table key).map Versioned.version = expectedVersion ∧
      compareAndSetDocument jsonb table key expectedVersion value =
        .ok (table.put key ⟨expectedVersion.getD 0 + 1, value⟩, ⟨expectedVersion.getD 0 + 1, value⟩)) := by
  by_cases valid : key.isValid = true
  · rw [compareAndSetDocument, DocumentKey.check_valid valid]
    cases checked : checkVersion expectedVersion (js "expectedVersion") with
    | error e => exact .inl ⟨e, rfl⟩
    | ok expected =>
      have same : expected = expectedVersion := by
        unfold checkVersion at checked
        split at checked
        · exact (Except.ok.inj checked).symm
        · cases checked
      subst same
      by_cases current : (table key).map Versioned.version = expected
      · cases jsonb value with
        | true =>
          refine .inr ⟨valid, current, ?_⟩
          simp [current, bind, Except.bind, pure, Except.pure]
        | false =>
          refine .inl ⟨.query, ?_⟩
          simp [current, bind, Except.bind, throw, throwThe, MonadExceptOf.throw]
      · refine .inl ⟨.conflict, ?_⟩
        simp [current, bind, Except.bind, throw, throwThe, MonadExceptOf.throw]
  · rw [Bool.not_eq_true] at valid
    obtain ⟨field, checked⟩ := DocumentKey.check_invalid valid
    exact .inl ⟨.invalid field, by rw [compareAndSetDocument, checked]; rfl⟩

theorem getDocument_ok {found : Option (Versioned ρ)} (read : getDocument table key = .ok found) : found = table key := by
  unfold getDocument at read
  cases checked : key.check with
  | error e =>
    rw [checked] at read
    cases read
  | ok same =>
    rw [checked] at read
    by_cases valid : key.isValid = true
    · rw [DocumentKey.check_valid valid] at checked
      obtain rfl := Except.ok.inj checked
      exact (Except.ok.inj read).symm
    · rw [Bool.not_eq_true] at valid
      obtain ⟨field, refused⟩ := DocumentKey.check_invalid valid
      rw [refused] at checked
      cases checked

end

end Handrail.Postgres

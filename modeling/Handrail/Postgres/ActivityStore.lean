import Handrail.Conversation.Activity
import Handrail.Postgres.Documents

/-!
# The activity store in Postgres

`PostgresConversationActivityStore` keeps one document for each conversation. What it makes of the same
deliveries is compared with the records of the store in memory.
-/

namespace Handrail.Postgres
open Js Conversation Concurrent

/-! ### What is retained -/

/-- What `retainConversationActivity` returns: the current record itself, its copy that is read, or the incoming record. -/
inductive Retention where
  | current
  | read
  | incoming
deriving DecidableEq, Repr

def retention (current incoming : ConversationActivityRecord) : Retention :=
  if revisionAfter current.turnRevision incoming.turnRevision then .current
  else if current.turnId.isSome ∧ current.turnId = incoming.turnId then
    if current.isTerminal then
      if incoming.turnStatus = current.turnStatus ∧ current.unread ∧ !incoming.unread then .read
      else .current
    else if stampedAfter current.updatedAt incoming.updatedAt then .current
    else .incoming
  else .incoming

theorem retain_eq (c r : ConversationActivityRecord) :
    retainConversationActivity (some c) r =
      match retention c r with
      | .current => c
      | .read => { c with unread := false }
      | .incoming => r := by
  unfold retainConversationActivity retention
  simp only
  split
  · rfl
  · split
    · split
      · split <;> rfl
      · split <;> rfl
    · rfl

theorem read_unread {c r : ConversationActivityRecord} (marked : retention c r = .read) : c.unread = true ∧ r.unread = false := by
  unfold retention at marked
  split at marked
  · cases marked
  · split at marked
    · split at marked
      · split at marked
        · rename_i marker
          exact ⟨marker.2.1, by simpa using marker.2.2⟩
        · cases marked
      · split at marked <;> cases marked
    · cases marked

/-! ### Records that were parsed -/

def toInput (r : ConversationActivityRecord) : ActivityInput where
  conversationId := r.conversationId
  turnId := r.turnId
  turnRevision := r.turnRevision.map fun n => .ofNat n.value
  turnStatus := r.turnStatus
  unread := r.unread
  updatedAt := r.updatedAt
  summary := r.summary
  progress := r.progress.map fun p => ⟨.ofNat p.completed.value, .ofNat p.total.value, p.unit⟩

/-- `jsonb` takes every text of the record's JSON. -/
def isJsonbActivity (r : ActivityInput) : Bool :=
  isJsonbText r.conversationId && r.turnId.all isJsonbText && r.updatedAt.all isJsonbText && r.summary.all isJsonbText &&
    r.progress.all fun p => p.unit.all isJsonbText

class IsoDates [DatePlatform] : Prop where
  stable : ∀ {text iso}, DatePlatform.isoString text = some iso → DatePlatform.isoString iso = some iso
  short : ∀ {text iso}, DatePlatform.isoString text = some iso → iso.length ≤ 64

theorem readSafeInteger_ofNat {min : Nat} (n : SafeInteger min) : readSafeInteger min (.ofNat n.value) = some n :=
  readSafeInteger_eq_some.mpr (JsNumber.safeNat?_ofNat n.safe)

theorem parseActivitySummary_parsed {text summary : Option JsString} (parsed : parseActivitySummary text = some summary) :
    parseActivitySummary summary = some summary := by
  cases text with
  | none =>
    obtain rfl := Option.some.inj parsed
    rfl
  | some text =>
    simp only [parseActivitySummary] at parsed
    split at parsed
    · cases parsed
    · rename_i fits
      obtain rfl := Option.some.inj parsed
      simp only [parseActivitySummary, trim_trim]
      exact if_neg fits

theorem parseActivityProgress_parsed {input : Option (ActivityProgress JsNumber)}
    {progress : Option (ActivityProgress (SafeInteger 0))} (parsed : parseActivityProgress input = some progress) :
    parseActivityProgress (progress.map fun p => ⟨.ofNat p.completed.value, .ofNat p.total.value, p.unit⟩) =
      some progress := by
  cases input with
  | none =>
    obtain rfl := Option.some.inj parsed
    rfl
  | some input =>
    simp only [parseActivityProgress] at parsed
    obtain ⟨completed, _, parsed⟩ := Option.bind_eq_some_iff.mp parsed
    obtain ⟨total, _, parsed⟩ := Option.bind_eq_some_iff.mp parsed
    obtain ⟨counts, parsed⟩ := guard_bind.mp parsed
    obtain ⟨unit, same⟩ := guard_bind.mp parsed
    obtain rfl := Option.some.inj same
    have again : (input.unit.map trim).map trim = input.unit.map trim := by
      cases input.unit <;> simp [trim_trim]
    simp only [parseActivityProgress, Option.map_some, readSafeInteger_ofNat, again]
    exact guard_bind.mpr ⟨counts, guard_bind.mpr ⟨unit, rfl⟩⟩

section
variable [DatePlatform]

theorem parse_toInput [IsoDates] {input : ActivityInput} {r : ConversationActivityRecord}
    (parsed : parseConversationActivityRecord input = some r) : parseConversationActivityRecord (toInput r) = some r := by
  simp only [parseConversationActivityRecord] at parsed
  obtain ⟨named, parsed⟩ := guard_bind.mp parsed
  obtain ⟨updatedAt, dated, parsed⟩ := Option.bind_eq_some_iff.mp parsed
  obtain ⟨_, parsed⟩ := guard_bind.mp parsed
  obtain ⟨turn, parsed⟩ := guard_bind.mp parsed
  obtain ⟨identified, parsed⟩ := guard_bind.mp parsed
  obtain ⟨turnRevision, revised, parsed⟩ := Option.bind_eq_some_iff.mp parsed
  obtain ⟨summary, summarized, parsed⟩ := Option.bind_eq_some_iff.mp parsed
  obtain ⟨progress, progressed, parsed⟩ := Option.bind_eq_some_iff.mp parsed
  obtain ⟨explained, same⟩ := guard_bind.mp parsed
  obtain rfl := Option.some.inj same
  have dates : Conversation.optional DatePlatform.isoString updatedAt = some updatedAt ∧
      updatedAt.all (fun text => text.length ≤ 64) := by
    cases given : input.updatedAt with
    | none =>
      rw [given] at dated
      obtain rfl := Option.some.inj dated
      exact ⟨rfl, rfl⟩
    | some text =>
      rw [given] at dated
      obtain ⟨iso, printed, same⟩ := Option.map_eq_some_iff.mp dated
      subst same
      exact ⟨by rw [Conversation.optional, IsoDates.stable printed, Option.map_some], by simpa using IsoDates.short printed⟩
  have revisions : Conversation.optional (readSafeInteger 1) (turnRevision.map fun n => .ofNat n.value) = some turnRevision := by
    cases turnRevision with
    | none => rfl
    | some n => simp [Conversation.optional, readSafeInteger_ofNat]
  have known : (turnRevision.map fun n => JsNumber.ofNat n.value).isSome → input.turnId.isSome := by
    intro revision
    apply identified
    cases given : input.turnRevision with
    | none =>
      rw [given] at revised
      obtain rfl := Option.some.inj revised
      cases revision
    | some n => rfl
  simp only [parseConversationActivityRecord, toInput, trim_trim, dates.1, revisions,
    parseActivitySummary_parsed summarized, parseActivityProgress_parsed progressed]
  exact guard_bind.mpr ⟨named, guard_bind.mpr ⟨dates.2, guard_bind.mpr ⟨turn, guard_bind.mpr ⟨known,
    guard_bind.mpr ⟨explained, rfl⟩⟩⟩⟩⟩

/-! ### The store -/

/-- `PostgresConversationActivityStore`; its constructor checks both identifiers. -/
structure PostgresConversationActivityStore where
  tenantId : JsString
  scopeId : JsString
  valid : isId tenantId = true ∧ isId scopeId = true

/-- What an upsert throws: a `TypeError` about the record, or what the persistence throws. -/
inductive ActivityFailure where
  | record
  | persistence (error : PersistenceError)
deriving DecidableEq, Repr

def readActivity (input : ActivityInput) : Except ActivityFailure ConversationActivityRecord :=
  match parseConversationActivityRecord input with
  | some record => .ok record
  | none => .error .record

namespace PostgresConversationActivityStore
variable (store : PostgresConversationActivityStore)

def key (conversationId : JsString) : DocumentKey := ⟨store.tenantId, store.scopeId, conversationId⟩

def load (table : Table ActivityInput) (conversationId : JsString) :
    Except ActivityFailure (Option (Versioned ConversationActivityRecord)) := do
  match ← (getDocument table (store.key conversationId)).mapError .persistence with
  | none => return none
  | some current =>
    let record ← readActivity current.record
    return some ⟨current.version, record⟩

/-- The attempts of `upsert`. -/
def attempt (record : ConversationActivityRecord) :
    Nat → Table ActivityInput → Table ActivityInput × Except ActivityFailure ConversationActivityRecord
  | 0, table => (table, .error (.persistence .conflict))
  | attempts + 1, table =>
    match store.load table record.conversationId with
    | .error e => (table, .error e)
    | .ok current =>
      match current.filter fun c => retention c.record record == .current with
      | some retained => (table, .ok retained.record)
      | none =>
        match compareAndSetDocument isJsonbActivity table (store.key record.conversationId) (current.map Versioned.version)
            (toInput record) with
        | .ok (next, saved) => (next, readActivity saved.record)
        | .error .conflict => attempt record attempts table
        | .error e => (table, .error (.persistence e))

def upsert (table : Table ActivityInput) (input : ActivityInput) :
    Table ActivityInput × Except ActivityFailure ConversationActivityRecord :=
  match readActivity input with
  | .error e => (table, .error e)
  | .ok record => store.attempt record 12 table

/-- The document of a conversation and its record, as `list` parses it. -/
def view (table : Table ActivityInput) (conversationId : JsString) : Option (Versioned ConversationActivityRecord) :=
  (table (store.key conversationId)).bind fun d => (parseConversationActivityRecord d.record).map (Versioned.mk d.version)

/-! ### One delivery -/

structure WellKept (table : Table ActivityInput) : Prop where
  keys : ∀ key d, table key = some d → key.isValid = true
  records : ∀ key d, table key = some d → 1 ≤ d.version ∧
    ∃ r, d.record = toInput r ∧ parseConversationActivityRecord d.record = some r

/-- Where a delivery to Postgres does what a delivery to memory does: `jsonb` takes what is written, a copy that is
read is the delivered record, and the version has room for what is written. -/
structure Applies (current : Option (Versioned ConversationActivityRecord)) (r : ConversationActivityRecord) : Prop where
  fresh : current = none → isJsonbActivity (toInput r) = true
  marker : ∀ c, current = some c → retention c.record r = .read → r = { c.record with unread := false }
  room : ∀ c, current = some c → retention c.record r ≠ .current →
    isJsonbActivity (toInput r) = true ∧ c.version ≤ JsNumber.maxSafeInteger ∨ r = c.record

variable {store} {table : Table ActivityInput} {input : ActivityInput} {r : ConversationActivityRecord}
  {conversationId : JsString}

omit [DatePlatform] in
theorem key_valid (named : conversationId.length ≠ 0 ∧ conversationId.length ≤ 256) :
    (store.key conversationId).isValid = !conversationId.units.contains 0 := by
  rw [DocumentKey.isValid, key, store.valid.1, store.valid.2, isId]
  simp [named.1, named.2]

theorem parsed_named (parsed : parseConversationActivityRecord input = some r) :
    r.conversationId.length ≠ 0 ∧ r.conversationId.length ≤ 256 := by
  simp only [parseConversationActivityRecord] at parsed
  obtain ⟨named, parsed⟩ := guard_bind.mp parsed
  obtain ⟨_, _, parsed⟩ := Option.bind_eq_some_iff.mp parsed
  obtain ⟨_, parsed⟩ := guard_bind.mp parsed
  obtain ⟨_, parsed⟩ := guard_bind.mp parsed
  obtain ⟨_, parsed⟩ := guard_bind.mp parsed
  obtain ⟨_, _, parsed⟩ := Option.bind_eq_some_iff.mp parsed
  obtain ⟨_, _, parsed⟩ := Option.bind_eq_some_iff.mp parsed
  obtain ⟨_, _, parsed⟩ := Option.bind_eq_some_iff.mp parsed
  obtain ⟨_, same⟩ := guard_bind.mp parsed
  obtain rfl := Option.some.inj same
  exact named

theorem upsert_unnamed (parsed : parseConversationActivityRecord input = some r)
    (unnamed : r.conversationId.units.contains 0 = true) : (store.upsert table input).1 = table := by
  have invalid : (store.key r.conversationId).isValid = !r.conversationId.units.contains 0 := key_valid (parsed_named parsed)
  rw [unnamed, Bool.not_true] at invalid
  obtain ⟨field, checked⟩ := DocumentKey.check_invalid invalid
  simp [upsert, readActivity, parsed, attempt, load, getDocument, checked, bind, Except.bind, Except.mapError]

theorem load_view (kept : WellKept table) (valid : (store.key conversationId).isValid = true) :
    store.load table conversationId = .ok (store.view table conversationId) := by
  rw [load, getDocument_valid valid, view]
  cases found : table (store.key conversationId) with
  | none => rfl
  | some d =>
    obtain ⟨_, r, _, parsed⟩ := kept.records _ d found
    simp [readActivity, parsed, Except.mapError, bind, Except.bind, pure, Except.pure]

theorem view_version (kept : WellKept table) :
    (store.view table conversationId).map Versioned.version = (table (store.key conversationId)).map Versioned.version := by
  rw [view]
  cases found : table (store.key conversationId) with
  | none => rfl
  | some d =>
    obtain ⟨_, r, _, parsed⟩ := kept.records _ d found
    simp [parsed]

/-- The record of a named conversation is kept, or replaced by the delivered one at the next version. -/
theorem attempt_named (kept : WellKept table) (attempts : Nat) (valid : (store.key r.conversationId).isValid = true) :
    (store.attempt r (attempts + 1) table).1 =
      if ((store.view table r.conversationId).all fun c =>
          retention c.record r != .current && decide (c.version ≤ JsNumber.maxSafeInteger)) &&
          isJsonbActivity (toInput r) then
        table.put (store.key r.conversationId)
          ⟨((store.view table r.conversationId).map Versioned.version).getD 0 + 1, toInput r⟩
      else table := by
  have versions : (store.view table r.conversationId).map Versioned.version =
      (table (store.key r.conversationId)).map Versioned.version := view_version kept
  rw [attempt, load_view kept valid]
  cases taken : isJsonbActivity (toInput r) with
  | false =>
    obtain ⟨e, refused, other⟩ : ∃ e, compareAndSetDocument _ table (store.key r.conversationId) _ _ = .error e ∧ _ :=
      compareAndSet_refused table taken
    rw [← versions] at refused
    cases current : (store.view table r.conversationId).filter fun c => retention c.record r == .current with
    | some c => simp [current]
    | none =>
      dsimp only
      rw [current, refused]
      cases e <;> simp at other ⊢
  | true =>
    cases current : store.view table r.conversationId with
    | none =>
      rw [current] at versions
      have absent : table (store.key r.conversationId) = none := Option.map_eq_none_iff.mp versions.symm
      have write := compareAndSet_current table valid taken (by simp [absent])
      rw [absent, Option.map_none, Option.getD_none] at write
      simp [write]
    | some c =>
      rw [current] at versions
      by_cases retained : retention c.record r = .current
      · simp [retained, Option.filter]
      · by_cases room : c.version ≤ JsNumber.maxSafeInteger
        · have write := compareAndSet_current table valid taken fun d found => by
            rw [found] at versions
            exact ⟨(kept.records _ d found).1, Option.some.inj versions ▸ room⟩
          rw [← versions, Option.map_some, Option.getD_some] at write
          simp [Option.filter, retained, room, write]
        · have write := compareAndSet_unsafe isJsonbActivity table (toInput r) valid (by omega : _ < c.version)
          simp [Option.filter, retained, room, write]

theorem upsert_named (kept : WellKept table) (parsed : parseConversationActivityRecord input = some r)
    (named : r.conversationId.units.contains 0 = false) :
    (store.upsert table input).1 =
      if ((store.view table r.conversationId).all fun c =>
          retention c.record r != .current && decide (c.version ≤ JsNumber.maxSafeInteger)) &&
          isJsonbActivity (toInput r) then
        table.put (store.key r.conversationId)
          ⟨((store.view table r.conversationId).map Versioned.version).getD 0 + 1, toInput r⟩
      else table := by
  have valid : (store.key r.conversationId).isValid = true := by
    rw [key_valid (parsed_named parsed), named, Bool.not_false]
  rw [upsert, readActivity, parsed]
  exact attempt_named kept 11 valid

theorem wellKept_put [IsoDates] (kept : WellKept table) (parsed : parseConversationActivityRecord input = some r)
    {key : DocumentKey} (valid : key.isValid = true) (n : Nat) : WellKept (table.put key ⟨n + 1, toInput r⟩) where
  keys k d found := by
    by_cases here : k = key
    · rw [here]
      exact valid
    · rw [Documents.put_other _ _ here] at found
      exact kept.keys k d found
  records k d found := by
    by_cases here : k = key
    · rw [here, Documents.put_self] at found
      obtain rfl := Option.some.inj found
      exact ⟨Nat.succ_pos _, r, rfl, parse_toInput parsed⟩
    · rw [Documents.put_other _ _ here] at found
      exact kept.records k d found

theorem wellKept_upsert [IsoDates] (kept : WellKept table) (input : ActivityInput) : WellKept (store.upsert table input).1 := by
  cases parsed : parseConversationActivityRecord input with
  | none => simpa [upsert, readActivity, parsed] using kept
  | some r =>
    by_cases named : r.conversationId.units.contains 0 = true
    · rw [upsert_unnamed parsed named]
      exact kept
    · rw [Bool.not_eq_true] at named
      rw [upsert_named kept parsed named]
      split
      · apply wellKept_put kept parsed
        rw [key_valid (parsed_named parsed), named, Bool.not_false]
      · exact kept

omit [DatePlatform] in
theorem applies_some {c : Versioned ConversationActivityRecord} :
    Applies (some c) r ↔ (retention c.record r = .read → r = { c.record with unread := false }) ∧
      (retention c.record r ≠ .current →
        isJsonbActivity (toInput r) = true ∧ c.version ≤ JsNumber.maxSafeInteger ∨ r = c.record) := by
  constructor
  · intro applies
    exact ⟨applies.marker c rfl, applies.room c rfl⟩
  · intro ⟨marker, room⟩
    refine ⟨fun absent => (Option.some_ne_none c absent).elim, fun d same => ?_, fun d same => ?_⟩
    · exact Option.some.inj same ▸ marker
    · exact Option.some.inj same ▸ room

/-- A delivery leaves in Postgres what it leaves in memory exactly when it applies. -/
theorem upsert_agrees [IsoDates] (kept : WellKept table) (parsed : parseConversationActivityRecord input = some r) :
    (store.view (store.upsert table input).1 r.conversationId).map Versioned.record =
        some (retainConversationActivity ((store.view table r.conversationId).map Versioned.record) r) ↔
      Applies (store.view table r.conversationId) r := by
  by_cases unnamed : r.conversationId.units.contains 0 = true
  · have absent : table (store.key r.conversationId) = none := by
      rw [Option.eq_none_iff_forall_not_mem]
      intro d found
      have valid := kept.keys _ d found
      rw [key_valid (parsed_named parsed), unnamed] at valid
      cases valid
    rw [upsert_unnamed parsed unnamed, view, absent]
    constructor
    · intro same
      cases same
    · intro applies
      have taken := applies.fresh rfl
      simp only [isJsonbActivity, isJsonbText, toInput, Bool.and_eq_true, Bool.not_eq_true'] at taken
      rw [taken.1.1.1.1.2] at unnamed
      cases unnamed
  · rw [Bool.not_eq_true] at unnamed
    have written (v : Nat) :
      store.view (table.put (store.key r.conversationId) ⟨v, toInput r⟩) r.conversationId = some ⟨v, r⟩ := by
      rw [view, Documents.put_self, Option.bind_some, parse_toInput parsed, Option.map_some]
    rw [upsert_named kept parsed unnamed]
    cases current : store.view table r.conversationId with
    | none =>
      cases taken : isJsonbActivity (toInput r) with
      | true =>
        simp only [Option.all_none, Bool.and_self, ↓reduceIte, written]
        exact ⟨fun _ => ⟨fun _ => taken, by simp, by simp⟩, fun _ => rfl⟩
      | false =>
        simp only [Option.all_none, Bool.and_false, Bool.false_eq_true, ↓reduceIte, current]
        constructor
        · intro same
          cases same
        · intro applies
          cases taken.symm.trans (applies.fresh rfl)
    | some c =>
      rw [applies_some, Option.map_some, Option.map_some, retain_eq]
      have unwritten (room : ¬ (isJsonbActivity (toInput r) = true ∧ c.version ≤ JsNumber.maxSafeInteger)) :
          ((some c).all (fun c => retention c.record r != .current && decide (c.version ≤ JsNumber.maxSafeInteger)) &&
            isJsonbActivity (toInput r)) = false := by
        rw [Bool.eq_false_iff]
        intro writes
        simp only [Option.all_some, Bool.and_eq_true, decide_eq_true_eq] at writes
        exact room ⟨writes.2, writes.1.2⟩
      cases retained : retention c.record r with
      | current => simp [retained, current]
      | read =>
        obtain ⟨unread, read⟩ := read_unread retained
        have changed : c.record ≠ { c.record with unread := false } := by
          intro same
          rw [congrArg ActivityRecord.unread same] at unread
          cases unread
        have different : r ≠ c.record := by
          intro same
          rw [same, unread] at read
          cases read
        by_cases room : isJsonbActivity (toInput r) = true ∧ c.version ≤ JsNumber.maxSafeInteger
        · simp [retained, room.1, room.2, written]
        · rw [unwritten room, if_neg Bool.false_ne_true, current, Option.map_some, Option.some_inj]
          constructor
          · intro same
            exact (changed same).elim
          · intro applies
            exact ((applies.2 (by decide)).elim room different).elim
      | incoming =>
        by_cases room : isJsonbActivity (toInput r) = true ∧ c.version ≤ JsNumber.maxSafeInteger
        · simp [retained, room.1, room.2, written]
        · rw [unwritten room, if_neg Bool.false_ne_true, current, Option.map_some, Option.some_inj]
          constructor
          · intro same
            refine ⟨fun read => ?_, fun _ => .inr same.symm⟩
            cases read
          · intro applies
            exact ((applies.2 (by decide)).resolve_left room).symm

/-! ### Runs -/

end PostgresConversationActivityStore

/-- A call with one record: `upsert`, or `replace` by a snapshot that lists it. -/
inductive ActivityCall where
  | upsert (input : ActivityInput)
  | replace (input : ActivityInput)

def ActivityCall.input : ActivityCall → ActivityInput
  | .upsert input => input
  | .replace input => input

/-- A call on `InMemoryConversationActivityStore`. -/
def memoryCall (index : ActivityIndex) (call : ActivityCall) : ActivityIndex :=
  match parseConversationActivityRecord call.input, call with
  | none, _ => index
  | some record, .upsert _ => index.upsert record
  | some record, .replace _ => (index.replace [record]).getD index

namespace PostgresConversationActivityStore

/-- The same call on Postgres; a durable store has no `replace`, so the records of a snapshot are upserted. -/
def call (store : PostgresConversationActivityStore) (table : Table ActivityInput) (call : ActivityCall) :
    Table ActivityInput := (store.upsert table call.input).1

def record (store : PostgresConversationActivityStore) (table : Table ActivityInput) (conversationId : JsString) :
    Option ConversationActivityRecord := (store.view table conversationId).map Versioned.record

variable {store : PostgresConversationActivityStore} {table : Table ActivityInput} {index : ActivityIndex}
  {call : ActivityCall} {calls : List ActivityCall} {r : ConversationActivityRecord} {conversationId : JsString}

theorem memoryCall_retains (parsed : parseConversationActivityRecord call.input = some r) :
    memoryCall index call r.conversationId = some (retainConversationActivity (index r.conversationId) r) := by
  cases call with
  | upsert input => simp [memoryCall, parsed, ActivityIndex.upsert]
  | replace input => simp [memoryCall, parsed, ActivityIndex.replace]

theorem runs_agree [IsoDates] (kept : WellKept table)
    (valid : ∀ call ∈ calls, ∃ r, parseConversationActivityRecord call.input = some r ∧ r.conversationId = conversationId)
    (equal : store.record table conversationId = index conversationId) :
    (∀ before, before <+: calls →
      store.record (before.foldl store.call table) conversationId = before.foldl memoryCall index conversationId) ↔
    ∀ before call r, before ++ [call] <+: calls → parseConversationActivityRecord call.input = some r →
      Applies (store.view (before.foldl store.call table) conversationId) r := by
  induction calls generalizing table index with
  | nil =>
    constructor
    · intro _ before call r start
      simp at start
    · intro _ before start
      rw [List.prefix_nil.mp start]
      exact equal
  | cons call rest ih =>
    obtain ⟨r, parsed, rfl⟩ := valid call List.mem_cons_self
    have step : _ ↔ PostgresConversationActivityStore.Applies (store.view table r.conversationId) r := upsert_agrees kept parsed
    have after : memoryCall index call r.conversationId = _ := memoryCall_retains parsed
    rw [← equal] at after
    have next (first : store.record (store.call table call) r.conversationId = memoryCall index call r.conversationId) :=
      ih (wellKept_upsert kept call.input) (fun later member => valid later (List.mem_cons_of_mem _ member)) first
    constructor
    · intro agree
      have first := agree [call] (by simp)
      have applies := step.mp (first.trans after)
      intro before later s start read
      cases before with
      | nil =>
        obtain ⟨rfl, _⟩ := List.cons_prefix_cons.mp start
        obtain rfl := Option.some.inj (parsed.symm.trans read)
        exact applies
      | cons head before =>
        obtain ⟨same, inside⟩ := List.cons_prefix_cons.mp start
        rw [same]
        refine (next first).mp (fun before start => ?_) before later s inside read
        exact agree (call :: before) (List.cons_prefix_cons.mpr ⟨rfl, start⟩)
    · intro applies before start
      have first := (step.mpr (applies [] call r (by simp) parsed)).trans after.symm
      cases before with
      | nil => exact equal
      | cons head before =>
        obtain ⟨same, inside⟩ := List.cons_prefix_cons.mp start
        rw [same]
        refine (next first).mpr (fun before later s start read => ?_) before inside
        exact applies (call :: before) later s (List.cons_prefix_cons.mpr ⟨rfl, start⟩) read

end PostgresConversationActivityStore

/-- After every sequence of deliveries of one conversation both stores hold the same record, exactly when every
delivery applies. -/
theorem activity_stores_agree [IsoDates] (store : PostgresConversationActivityStore) (conversationId : JsString)
    (calls : List ActivityCall)
    (valid : ∀ call ∈ calls, ∃ r, parseConversationActivityRecord call.input = some r ∧ r.conversationId = conversationId) :
    (∀ before, before <+: calls →
      store.record (before.foldl store.call fun _ => none) conversationId =
        before.foldl memoryCall (fun _ => none) conversationId) ↔
    ∀ before call r, before ++ [call] <+: calls → parseConversationActivityRecord call.input = some r →
      PostgresConversationActivityStore.Applies
        (store.view (before.foldl store.call fun _ => none) conversationId) r := by
  apply PostgresConversationActivityStore.runs_agree
  · constructor
    · intro _ _ found
      cases found
    · intro _ _ found
      cases found
  · exact valid
  · rfl

end

theorem readTimestamp_short {text : JsString} {t : UtcTimestamp} (read : readTimestamp text = some t) : text.length ≤ 64 := by
  unfold readTimestamp at read
  split at read
  · rename_i rest shape
    obtain ⟨_, _, read⟩ := Option.bind_eq_some_iff.mp read
    obtain ⟨_, _, read⟩ := Option.bind_eq_some_iff.mp read
    obtain ⟨_, _, read⟩ := Option.bind_eq_some_iff.mp read
    obtain ⟨_, _, read⟩ := Option.bind_eq_some_iff.mp read
    obtain ⟨_, _, read⟩ := Option.bind_eq_some_iff.mp read
    obtain ⟨_, _, read⟩ := Option.bind_eq_some_iff.mp read
    obtain ⟨_, fraction, _⟩ := Option.bind_eq_some_iff.mp read
    have tail : rest.length ≤ 11 := by
      unfold readFraction at fraction
      split at fraction
      · simp
      · dsimp only at fraction
        split at fraction
        · rename_i digits
          have fewer := digits.2.2
          simp only [List.length_dropLast] at fewer
          simp only [List.length_cons]
          omega
        · cases fraction
      · cases fraction
    simp only [JsString.length, shape, List.length_cons]
    omega
  · cases read

theorem isoDates_iso : @IsoDates isoDates := by
  let _ := isoDates
  constructor
  · intro text iso printed
    obtain ⟨t, read, rfl⟩ := Option.map_eq_some_iff.mp printed
    exact printed
  · intro text iso printed
    obtain ⟨t, read, rfl⟩ := Option.map_eq_some_iff.mp printed
    exact readTimestamp_short read

def sampleStore : PostgresConversationActivityStore := ⟨js "tenant", js "scope", by decide +kernel⟩

def sampleEnd (unread : Bool) (summary : Option String) : ActivityCall := .upsert {
  sampleActivity .completed "2026-01-01T00:00:10.000Z" with
  unread
  summary := summary.map js }

def sampleEndRecord (unread : Bool) (summary : Option String) : ConversationActivityRecord := {
  sampleRecord .completed "2026-01-01T00:00:10.000Z" with
  unread
  summary := summary.map js }

theorem prefix_pair {α : Type} {before : List α} {x a b : α} (start : before ++ [x] <+: [a, b]) :
    (before = [] ∧ x = a) ∨ (before = [a] ∧ x = b) := by
  cases before with
  | nil => exact .inl ⟨rfl, (List.cons_prefix_cons.mp start).1⟩
  | cons first before =>
    obtain ⟨same, rest⟩ := List.cons_prefix_cons.mp start
    rw [same]
    cases before with
    | nil => exact .inr ⟨rfl, (List.cons_prefix_cons.mp rest).1⟩
    | cons second before =>
      have short := (List.cons_prefix_cons.mp rest).2.length_le
      simp at short

/-- Two reports of a finished turn, the second one read and with the summary of the first. -/
theorem activity_stores_agree_same : ∃ _ : DatePlatform, ∃ store : PostgresConversationActivityStore, ∃ calls,
    calls = [sampleEnd true (some "Done"), sampleEnd false (some "Done")] ∧
    ∀ before, before <+: calls → store.record (before.foldl store.call fun _ => none) (js "conversation") =
      before.foldl memoryCall (fun _ => none) (js "conversation") := by
  let _ := isoDates
  have _ := isoDates_iso
  refine ⟨isoDates, sampleStore, _, rfl, (activity_stores_agree sampleStore (js "conversation") _ ?_).mpr ?_⟩
  · intro call member
    simp only [List.mem_cons, List.not_mem_nil, or_false] at member
    rcases member with rfl | rfl
    · exact ⟨sampleEndRecord true (some "Done"), by decide +kernel, rfl⟩
    · exact ⟨sampleEndRecord false (some "Done"), by decide +kernel, rfl⟩
  · intro before call r start read
    rcases prefix_pair start with ⟨rfl, rfl⟩ | ⟨rfl, rfl⟩
    · have first : parseConversationActivityRecord (sampleEnd true (some "Done")).input =
          some (sampleEndRecord true (some "Done")) := by decide +kernel
      obtain rfl := Option.some.inj (first.symm.trans read)
      refine ⟨fun _ => by decide +kernel, fun c absent => ?_, fun c absent => ?_⟩ <;> cases absent
    · have second : parseConversationActivityRecord (sampleEnd false (some "Done")).input =
          some (sampleEndRecord false (some "Done")) := by decide +kernel
      have kept : sampleStore.view ([sampleEnd true (some "Done")].foldl sampleStore.call fun _ => none) (js "conversation") =
          some ⟨1, sampleEndRecord true (some "Done")⟩ := by decide +kernel
      obtain rfl := Option.some.inj (second.symm.trans read)
      rw [kept]
      have taken : isJsonbActivity (toInput (sampleEndRecord false (some "Done"))) = true := by decide +kernel
      refine ⟨fun absent => ?_, fun c same _ => ?_, fun c same _ => .inl ⟨taken, ?_⟩⟩
      · cases absent
      · obtain rfl := Option.some.inj same
        rfl
      · obtain rfl := Option.some.inj same
        decide

/-- The second report has no summary: in memory the first summary stays, in Postgres it is gone. -/
theorem read_marker_replaces : ∃ _ : DatePlatform, ∃ store : PostgresConversationActivityStore, ∃ calls,
    calls = [sampleEnd true (some "Done"), sampleEnd false none] ∧
    (∀ call ∈ calls, ∃ r, parseConversationActivityRecord call.input = some r ∧ r.conversationId = js "conversation") ∧
    store.record (calls.foldl store.call fun _ => none) (js "conversation") ≠
      calls.foldl memoryCall (fun _ => none) (js "conversation") := by
  let _ := isoDates
  refine ⟨isoDates, sampleStore, _, rfl, ?_, ?_⟩
  · intro call member
    simp only [List.mem_cons, List.not_mem_nil, or_false] at member
    rcases member with rfl | rfl
    · exact ⟨sampleEndRecord true (some "Done"), by decide +kernel, rfl⟩
    · exact ⟨sampleEndRecord false none, by decide +kernel, rfl⟩
  · decide +kernel

end Handrail.Postgres

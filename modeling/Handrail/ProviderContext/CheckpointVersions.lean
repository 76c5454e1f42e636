import Handrail.ProviderContext.CheckpointStore

/-!
# Versions of checkpoints

A slot counts its checkpoints, and a slot that was evicted counts from one again. As long as no slot is
made again, a version names one checkpoint.
-/

namespace Handrail.ProviderContext
open Js Conversation

/-! ### Keys -/

theorem StoreConversationId.no_nul (id : StoreConversationId) : ∀ c ∈ id.text.units, c ≠ 0 := by
  have within : Pattern.Within (· ≠ 0) (.all ([.unit Pattern.isAlphanumeric, .repeats (alphanumericOr "._:@/+~-") 0 none] ++
      [.finish])) := by
    refine ⟨?_, ?_, trivial, trivial⟩
    all_goals
      rintro c accepted rfl
      revert accepted
      decide
  exact Pattern.test_whole _ within id.matched

theorem split_at_nul {a b x y : List UInt16} (left : ∀ c ∈ a, c ≠ 0) (right : ∀ c ∈ b, c ≠ 0)
    (same : a ++ 0 :: x = b ++ 0 :: y) : a = b ∧ x = y := by
  induction a generalizing b with
  | nil =>
    cases b with
    | nil => exact ⟨rfl, (List.cons.inj same).2⟩
    | cons c b => exact (right c (List.mem_cons_self ..) (List.cons.inj same).1.symm).elim
  | cons d a ih =>
    cases b with
    | nil => exact (left d (List.mem_cons_self ..) (List.cons.inj same).1).elim
    | cons c b =>
      obtain ⟨rfl, rest⟩ := List.cons.inj same
      obtain ⟨rfl, rfl⟩ := ih (fun c member => left c (List.mem_cons_of_mem _ member))
        (fun c member => right c (List.mem_cons_of_mem _ member)) rest
      exact ⟨rfl, rfl⟩

theorem scopeKey_inj {scope other : CheckpointScope} : scopeKey scope = scopeKey other ↔ scope = other := by
  refine ⟨fun same => ?_, fun same => same ▸ rfl⟩
  have left := scope.conversationId.no_nul
  have right := other.conversationId.no_nul
  have units : scope.conversationId.text.units ++ [0] ++ scope.fingerprint.text.units =
      other.conversationId.text.units ++ [0] ++ other.fingerprint.text.units := congrArg JsString.units same
  rw [List.append_assoc, List.append_assoc] at units
  obtain ⟨ids, fingerprints⟩ := split_at_nul left right units
  obtain ⟨⟨id, _, _, _⟩, ⟨fingerprint, _⟩⟩ := scope
  obtain ⟨⟨id', _, _, _⟩, ⟨fingerprint', _⟩⟩ := other
  obtain rfl : id = id' := JsString.ext ids
  obtain rfl : fingerprint = fingerprint' := JsString.ext fingerprints
  rfl

/-! ### Reports -/

structure CheckpointReport where
  scope : CheckpointScope
  version : Nat
  checkpoint : Option ProviderContextCheckpoint
deriving DecidableEq

def CheckpointRecord.report (record : CheckpointRecord) : CheckpointReport :=
  ⟨record.scope, record.storeVersion, some record.checkpoint⟩

def InvalidationResult.report (result : InvalidationResult) : Option CheckpointReport :=
  result.storeVersion.map fun version => ⟨result.scope, version, none⟩

def IdempotencyRecord.report : IdempotencyRecord → Option CheckpointReport
  | .save _ result => some result.report
  | .invalidate _ result => result.report

def CheckpointOutcome.report : CheckpointOutcome → Option CheckpointReport
  | .loaded record => record.map CheckpointRecord.report
  | .saved record => some record.report
  | .invalidated result => result.report
  | .failed _ => none

def CheckpointCall.snapshot : CheckpointCall → Option InvalidateSnapshot
  | .load _ => none
  | .save input => (snapshotSave input).toOption.map SaveSnapshot.toInvalidateSnapshot
  | .invalidate input => (snapshotInvalidate input).toOption

namespace CheckpointStore

def slot (s : CheckpointStore) (scope : CheckpointScope) : Option CheckpointSlot := s.slots.get (scopeKey scope)

def reports (s : CheckpointStore) (calls : List CheckpointCall) : List CheckpointReport :=
  (s.outcomes calls).filterMap CheckpointOutcome.report

def Replaces (s : CheckpointStore) (call : CheckpointCall) (scope : CheckpointScope) (version : Nat) : Prop :=
  (∃ snapshot, call.snapshot = some snapshot ∧ snapshot.scope = scope ∧
    snapshot.expectedVersion.map SafeInteger.value = some version ∧ s.idempotency.get snapshot.idempotencyKey = none) ∧
  ∀ e, (s.step call).2 ≠ .failed e

/-- The versions of a scope only grow, each of them names one checkpoint, and what a call replaces at a version
was reported to be current there. -/
structure VersionsKept (s : CheckpointStore) (calls : List CheckpointCall) : Prop where
  slots : ∀ first second rest, calls = first ++ second ++ rest → ∀ scope a b, (s.run first).slot scope = some a →
    (s.run (first ++ second)).slot scope = some b → a.version ≤ b.version ∧ (a.version = b.version → a = b)
  reports : ∀ r ∈ s.reports calls, ∀ r' ∈ s.reports calls, r.scope = r'.scope → r.version = r'.version →
    r.checkpoint = r'.checkpoint
  replaced : ∀ first call rest, calls = first ++ call :: rest → ∀ scope version, (s.run first).Replaces call scope version →
    ∃ checkpoint, (s.run first).slot scope = some ⟨version, checkpoint⟩ ∧ ⟨scope, version, checkpoint⟩ ∈ s.reports first ∧
      ∀ r ∈ s.reports calls, r.scope = scope → r.version = version → r.checkpoint = checkpoint

/-- The scope that gets a slot by this call: a save that stores a checkpoint where there is no slot. -/
def opens (s : CheckpointStore) : CheckpointCall → Option CheckpointScope
  | .save input =>
    match snapshotSave input with
    | .ok snapshot =>
      if snapshot.checkpointBytes ≤ s.limits.maxCheckpointSerializedBytes ∧ snapshot.aborted = false ∧
          (s.idempotency.get snapshot.idempotencyKey).isNone ∧ (s.slot snapshot.scope).isNone ∧
          snapshot.expectedVersion = none then
        some snapshot.scope
      else none
    | .error _ => none
  | _ => none

def openedScopes (s : CheckpointStore) : List CheckpointCall → List CheckpointScope
  | [] => []
  | call :: rest => (s.opens call).toList ++ openedScopes (s.step call).1 rest

/-! ### One call -/

structure Change (s t : CheckpointStore) (answer : Option CheckpointReport) (opened : Option CheckpointScope) : Prop where
  slots : ∀ scope slot, t.slot scope = some slot → s.slot scope = some slot ∨
    (answer = some ⟨scope, slot.version, slot.checkpoint⟩ ∧
      ((s.slot scope = none ∧ opened = some scope) ∨ ∃ old, s.slot scope = some old ∧ slot.version = old.version + 1))
  retained : ∀ key record, t.idempotency.get key = some record → s.idempotency.get key = some record ∨ record.report = answer
  answers : ∀ r, answer = some r → t.slot r.scope = some ⟨r.version, r.checkpoint⟩ ∨
    ∃ key record, s.idempotency.get key = some record ∧ record.report = some r

variable {s t : CheckpointStore}

theorem Change.same {answer : Option CheckpointReport} {opened : Option CheckpointScope}
    (answers : ∀ r, answer = some r → s.slot r.scope = some ⟨r.version, r.checkpoint⟩ ∨
      ∃ key record, s.idempotency.get key = some record ∧ record.report = some r) : Change s s answer opened where
  slots _ _ found := .inl found
  retained _ _ found := .inl found
  answers := answers

theorem Change.failed (opened : Option CheckpointScope) : Change s s none opened :=
  .same fun _ answer => by cases answer

theorem slot_touchSlot (s : CheckpointStore) (scope other : CheckpointScope) (slot : CheckpointSlot) :
    (s.touchSlot (scopeKey scope) slot).slot other = if other = scope then some slot else s.slot other := by
  unfold CheckpointStore.slot touchSlot
  by_cases same : other = scope
  · rw [same, if_pos rfl, OrderedMap.get_set_self]
  · have different : scopeKey other ≠ scopeKey scope := fun keys => same (scopeKey_inj.mp keys)
    rw [if_neg same, OrderedMap.get_set_other _ _ different, OrderedMap.get_delete_other _ different]

variable {scope : CheckpointScope}

theorem slot_evictOldestSlot {slot : CheckpointSlot}
    (found : s.evictOldestSlot.slot scope = some slot) : s.slot scope = some slot := by
  unfold evictOldestSlot at found
  split at found
  · exact OrderedMap.get_of_delete found
  · exact found

@[simp] theorem slot_rememberIdempotency (s : CheckpointStore) (key : IdempotencyKey) (record : IdempotencyRecord)
    (scope : CheckpointScope) : (s.rememberIdempotency key record).slot scope = s.slot scope := rfl

theorem get_rememberIdempotency {key other : IdempotencyKey} {record found : IdempotencyRecord}
    (get : (s.rememberIdempotency key record).idempotency.get other = some found) :
    s.idempotency.get other = some found ∨ found = record := by
  unfold rememberIdempotency at get
  by_cases same : other = key
  · rw [same, OrderedMap.get_set_self] at get
    exact .inr (Option.some.inj get).symm
  · rw [OrderedMap.get_set_other _ _ same] at get
    left
    split at get
    · split at get
      · exact OrderedMap.get_of_delete get
      · exact get
    · exact get

theorem Change.write {u : CheckpointStore} {slot : CheckpointSlot} {opened : Option CheckpointScope}
    {key : IdempotencyKey} {record : IdempotencyRecord}
    (kept : ∀ other slot, u.slot other = some slot → s.slot other = some slot)
    (retained : u.idempotency = s.idempotency) (same : record.report = some ⟨scope, slot.version, slot.checkpoint⟩)
    (next : (s.slot scope = none ∧ opened = some scope) ∨ ∃ old, s.slot scope = some old ∧ slot.version = old.version + 1) :
    Change s ((u.touchSlot (scopeKey scope) slot).rememberIdempotency key record) record.report opened where
  slots other found at_ := by
    rw [slot_rememberIdempotency, slot_touchSlot] at at_
    split at at_
    · rename_i here
      obtain rfl := Option.some.inj at_
      exact .inr ⟨here ▸ same, here ▸ next⟩
    · exact .inl (kept other found at_)
  retained other found at_ := by
    rcases get_rememberIdempotency at_ with before | new
    · exact .inl (retained ▸ before)
    · exact .inr (congrArg IdempotencyRecord.report new)
  answers r answer := by
    rw [same] at answer
    rw [← Option.some.inj answer, slot_rememberIdempotency, slot_touchSlot, if_pos rfl]
    exact .inl rfl

theorem saveSnapshot_change (s : CheckpointStore) (snapshot : SaveSnapshot) {opened : Option CheckpointScope}
    (opens : s.idempotency.get snapshot.idempotencyKey = none → s.slot snapshot.scope = none →
      snapshot.expectedVersion = none → opened = some snapshot.scope) :
    Change s (s.saveSnapshot snapshot).1 ((s.saveSnapshot snapshot).2.toOption.map CheckpointRecord.report) opened := by
  simp only [saveSnapshot, cloneCheckpointRecord_eq, cloneCheckpoint_eq]
  split
  · rename_i signature result retained
    split
    · exact .same fun r answer => .inr ⟨_, _, retained, answer⟩
    · exact .failed opened
  · exact .failed opened
  · rename_i unknown
    split
    · rename_i matched
      have kept (other : CheckpointScope) (slot : CheckpointSlot)
          (found : (if (s.slots.get (scopeKey snapshot.scope)).isNone = true ∧ s.limits.maxCheckpoints ≤ s.slots.size then
            s.evictOldestSlot else s).slot other = some slot) : s.slot other = some slot := by
        split at found
        · exact slot_evictOldestSlot found
        · exact found
      have untouched : (if (s.slots.get (scopeKey snapshot.scope)).isNone = true ∧ s.limits.maxCheckpoints ≤ s.slots.size then
          s.evictOldestSlot else s).idempotency = s.idempotency := by
        unfold evictOldestSlot
        split
        · split <;> rfl
        · rfl
      refine Change.write kept untouched ?_ ?_
      · rfl
      · cases current : s.slot snapshot.scope with
        | none =>
          have found : s.slots.get (scopeKey snapshot.scope) = none := current
          refine .inl ⟨rfl, opens unknown current ?_⟩
          rw [found] at matched
          cases expected : snapshot.expectedVersion with
          | none => rfl
          | some v =>
            rw [expected] at matched
            cases matched
        | some old =>
          have found : s.slots.get (scopeKey snapshot.scope) = some old := current
          exact .inr ⟨old, rfl, by rw [found]; rfl⟩
    · exact .failed opened

theorem invalidateSnapshot_change (s : CheckpointStore) (snapshot : InvalidateSnapshot) (opened : Option CheckpointScope) :
    Change s (s.invalidateSnapshot snapshot).1 ((s.invalidateSnapshot snapshot).2.toOption.bind InvalidationResult.report)
      opened := by
  unfold invalidateSnapshot
  split
  · rename_i signature result retained
    split
    · exact .same fun r answer => .inr ⟨_, _, retained, answer⟩
    · exact .failed opened
  · exact .failed opened
  · dsimp only
    split
    · split
      · rename_i version checkpoint current
        exact Change.write (fun _ _ found => found) rfl rfl (.inr ⟨_, current, rfl⟩)
      · rename_i other
        -- A tombstone, or nothing, stays as it is.
        refine ⟨fun _ _ found => .inl found, fun key record found => ?_, fun r answer => .inl ?_⟩
        · rcases get_rememberIdempotency found with before | new
          · exact .inl before
          · exact .inr (congrArg IdempotencyRecord.report new)
        · obtain ⟨version, held, rfl⟩ := Option.map_eq_some_iff.mp answer
          obtain ⟨⟨version, checkpoint⟩, found, rfl⟩ := Option.map_eq_some_iff.mp held
          cases checkpoint with
          | none => exact found
          | some checkpoint => exact (other _ _ found).elim
    · exact .failed opened

/-- A call changes the slot of one scope, by what it reports. -/
theorem step_change (s : CheckpointStore) (call : CheckpointCall) :
    Change s (s.step call).1 (s.step call).2.report (s.opens call) := by
  cases call with
  | load input =>
    refine .same fun r answer => .inl ?_
    simp only [step, load] at answer
    split at answer
    · cases answer
    · split at answer
      · cases answer
      · obtain ⟨record, loaded, rfl⟩ := Option.map_eq_some_iff.mp answer
        obtain ⟨slot, found, loaded⟩ := Option.bind_eq_some_iff.mp loaded
        obtain ⟨checkpoint, present, rfl⟩ := Option.map_eq_some_iff.mp loaded
        obtain ⟨version, held⟩ := slot
        obtain rfl : held = some checkpoint := present
        rw [cloneCheckpointRecord_eq]
        exact found
  | save input =>
    simp only [step, save]
    split
    · exact .failed _
    · rename_i snapshot read
      split
      · exact .failed _
      · rename_i fits
        split
        · exact .failed _
        · rename_i going
          have opens (unknown : s.idempotency.get snapshot.idempotencyKey = none) (missing : s.slot snapshot.scope = none)
              (expected : snapshot.expectedVersion = none) : s.opens (.save input) = some snapshot.scope := by
            simp [CheckpointStore.opens, read, unknown, missing, expected, Nat.le_of_not_lt fits, Bool.eq_false_iff.mpr going]
          have change := saveSnapshot_change s snapshot opens
          split
          · rename_i saved
            rw [saved] at change
            exact change
          · rename_i refused
            rw [refused] at change
            exact change
  | invalidate input =>
    simp only [step, invalidate]
    split
    · exact .failed _
    · rename_i snapshot read
      split
      · exact .failed _
      · have change := invalidateSnapshot_change s snapshot (s.opens (.invalidate input))
        split
        · rename_i done
          rw [done] at change
          exact change
        · rename_i refused
          rw [refused] at change
          exact change

/-! ### Runs -/

/-- What was reported so far: it has what the slots hold, and a version of a scope for one report. -/
structure Recorded (s : CheckpointStore) (opened : List CheckpointScope) (known : List CheckpointReport) : Prop where
  current : ∀ scope slot, s.slot scope = some slot → ⟨scope, slot.version, slot.checkpoint⟩ ∈ known ∧
    ∀ r ∈ known, r.scope = scope → r.version ≤ slot.version
  unique : ∀ r ∈ known, ∀ r' ∈ known, r.scope = r'.scope → r.version = r'.version → r = r'
  retained : ∀ key record r, s.idempotency.get key = some record → record.report = some r → r ∈ known
  opened : ∀ r ∈ known, r.scope ∈ opened

section
variable {opened : List CheckpointScope} {known : List CheckpointReport} {answer : Option CheckpointReport}
  {opens : Option CheckpointScope}

theorem Recorded.slot (recorded : s.Recorded opened known) (change : Change s t answer opens)
    (unopened : ∀ scope, opens = some scope → scope ∉ opened) {slot : CheckpointSlot}
    (found : t.slot scope = some slot) :
    (⟨scope, slot.version, slot.checkpoint⟩ ∈ known ∧ ∀ r ∈ known, r.scope = scope → r.version ≤ slot.version) ∨
      (answer = some ⟨scope, slot.version, slot.checkpoint⟩ ∧ ∀ r ∈ known, r.scope = scope → r.version < slot.version) := by
  rcases change.slots scope slot found with before | ⟨answered, ⟨_, opening⟩ | ⟨old, before, version⟩⟩
  · exact .inl (recorded.current scope slot before)
  · refine .inr ⟨answered, fun r member same => ?_⟩
    exact (unopened scope opening (same ▸ recorded.opened r member)).elim
  · refine .inr ⟨answered, fun r member same => ?_⟩
    have bounded := (recorded.current scope old before).2 r member same
    omega

theorem Recorded.answered (recorded : s.Recorded opened known) (change : Change s t answer opens)
    (unopened : ∀ scope, opens = some scope → scope ∉ opened) {r : CheckpointReport} (same : answer = some r) :
    r ∈ known ∨ ∀ other ∈ known, other.scope = r.scope → other.version < r.version := by
  rcases change.answers r same with found | ⟨key, record, retained, report⟩
  · rcases recorded.slot change unopened found with ⟨member, _⟩ | ⟨_, above⟩
    · exact .inl member
    · exact .inr above
  · exact .inl (recorded.retained key record r retained report)

theorem Recorded.change (recorded : s.Recorded opened known) (change : Change s t answer opens)
    (unopened : ∀ scope, opens = some scope → scope ∉ opened) :
    t.Recorded (opened ++ opens.toList) (known ++ answer.toList) := by
  have inside {r : CheckpointReport} (member : r ∈ known ++ answer.toList) : r ∈ known ∨ answer = some r := by
    simpa using member
  refine ⟨fun scope slot found => ?_, fun r member r' member' scopes versions => ?_, fun key record r retained report => ?_,
    fun r member => ?_⟩
  · have bounded (r : CheckpointReport) (member : r ∈ known ++ answer.toList) (same : r.scope = scope)
        (before : ∀ r ∈ known, r.scope = scope → r.version ≤ slot.version) : r.version ≤ slot.version := by
      rcases inside member with old | new
      · exact before r old same
      · rcases change.answers r new with at_ | ⟨key, record, retained, report⟩
        · rw [same, found] at at_
          exact Nat.le_of_eq (congrArg CheckpointSlot.version (Option.some.inj at_)).symm
        · exact before r (recorded.retained key record r retained report) same
    rcases recorded.slot change unopened found with ⟨member, before⟩ | ⟨answered, above⟩
    · exact ⟨List.mem_append_left _ member, fun r member same => bounded r member same before⟩
    · refine ⟨List.mem_append_right _ (by simp [answered]), fun r member same => bounded r member same ?_⟩
      exact fun r member same => Nat.le_of_lt (above r member same)
  · rcases inside member with old | new <;> rcases inside member' with old' | new'
    · exact recorded.unique r old r' old' scopes versions
    · rcases recorded.answered change unopened new' with known' | above
      · exact recorded.unique r old r' known' scopes versions
      · exact absurd versions (Nat.ne_of_lt (above r old scopes))
    · rcases recorded.answered change unopened new with known' | above
      · exact recorded.unique r known' r' old' scopes versions
      · exact absurd versions.symm (Nat.ne_of_lt (above r' old' scopes.symm))
    · exact Option.some.inj (new.symm.trans new')
  · rcases change.retained key record retained with before | new
    · exact List.mem_append_left _ (recorded.retained key record r before report)
    · exact List.mem_append_right _ (by simp [← new, report])
  · rcases inside member with old | new
    · exact List.mem_append_left _ (recorded.opened r old)
    · have present {slot : CheckpointSlot} (found : s.slot r.scope = some slot) : r.scope ∈ opened ++ opens.toList := by
        have inside := recorded.opened _ (recorded.current r.scope slot found).1
        exact List.mem_append_left _ inside
      rcases change.answers r new with found | ⟨key, record, retained, report⟩
      · rcases change.slots _ _ found with before | ⟨_, ⟨_, opening⟩ | ⟨old, before, _⟩⟩
        · exact present before
        · exact List.mem_append_right _ (by simp [opening])
        · exact present before
      · exact List.mem_append_left _ (recorded.opened r (recorded.retained key record r retained report))

end

theorem reports_cons (s : CheckpointStore) (call : CheckpointCall) (rest : List CheckpointCall) :
    s.reports (call :: rest) = (s.step call).2.report.toList ++ (s.step call).1.reports rest := by
  simp only [reports, outcomes, List.filterMap_cons]
  cases (s.step call).2.report <;> rfl

theorem reports_append (s : CheckpointStore) (first rest : List CheckpointCall) :
    s.reports (first ++ rest) = s.reports first ++ (s.run first).reports rest := by
  induction first generalizing s with
  | nil => rfl
  | cons call first ih =>
    rw [List.cons_append, reports_cons, reports_cons, ih, List.append_assoc]
    rfl

theorem openedScopes_append (s : CheckpointStore) (first rest : List CheckpointCall) :
    s.openedScopes (first ++ rest) = s.openedScopes first ++ (s.run first).openedScopes rest := by
  induction first generalizing s with
  | nil => rfl
  | cons call first ih =>
    rw [List.cons_append, openedScopes, openedScopes, ih, List.append_assoc]
    rfl

theorem Recorded.run {opened : List CheckpointScope} {known : List CheckpointReport} {calls : List CheckpointCall}
    (recorded : s.Recorded opened known) (once : (opened ++ s.openedScopes calls).Nodup) :
    (s.run calls).Recorded (opened ++ s.openedScopes calls) (known ++ s.reports calls) := by
  induction calls generalizing s opened known with
  | nil => simpa [openedScopes, reports, outcomes, CheckpointStore.run] using recorded
  | cons call rest ih =>
    rw [openedScopes, ← List.append_assoc] at once ⊢
    rw [reports_cons, ← List.append_assoc]
    refine ih (recorded.change (step_change s call) fun scope opening member => ?_) once
    have apart := (List.nodup_append.mp (List.nodup_append.mp once).1).2.2
    exact apart scope member scope (by simp [opening]) rfl

theorem recorded_new (limits : CheckpointStoreLimits) : (new limits).Recorded [] [] where
  current _ _ found := by cases found
  unique _ member := by cases member
  retained _ _ _ found := by cases found
  opened _ member := by cases member

theorem saveSnapshot_refused {snapshot : SaveSnapshot} (unknown : s.idempotency.get snapshot.idempotencyKey = none)
    (refused : ¬matchesExpectedVersion (s.slot snapshot.scope) snapshot.expectedVersion = true) :
    s.saveSnapshot snapshot = (s, .error ⟨.versionConflict, .save⟩) := by
  simp only [saveSnapshot, unknown]
  exact if_neg refused

theorem invalidateSnapshot_refused {snapshot : InvalidateSnapshot} (unknown : s.idempotency.get snapshot.idempotencyKey = none)
    (refused : ¬matchesExpectedVersion (s.slot snapshot.scope) snapshot.expectedVersion = true) :
    s.invalidateSnapshot snapshot = (s, .error ⟨.versionConflict, .invalidate⟩) := by
  simp only [invalidateSnapshot, unknown]
  exact if_neg refused

theorem step_refused {call : CheckpointCall} {snapshot : InvalidateSnapshot} (asks : call.snapshot = some snapshot)
    (unknown : s.idempotency.get snapshot.idempotencyKey = none)
    (refused : ¬matchesExpectedVersion (s.slot snapshot.scope) snapshot.expectedVersion = true) :
    ∃ e, (s.step call).2 = .failed e := by
  cases call with
  | load input => cases asks
  | save input =>
    obtain ⟨whole, read, rfl⟩ := Option.map_eq_some_iff.mp asks
    cases parsed : snapshotSave input with
    | error e =>
      rw [parsed] at read
      cases read
    | ok other =>
      rw [parsed] at read
      obtain rfl := Option.some.inj read
      simp only [step, save, parsed, saveSnapshot_refused unknown refused]
      split
      · exact ⟨_, rfl⟩
      · split <;> exact ⟨_, rfl⟩
  | invalidate input =>
    cases parsed : snapshotInvalidate input with
    | error e =>
      rw [CheckpointCall.snapshot, parsed] at asks
      cases asks
    | ok other =>
      rw [CheckpointCall.snapshot, parsed] at asks
      obtain rfl := Option.some.inj asks
      simp only [step, invalidate, parsed, invalidateSnapshot_refused unknown refused]
      split <;> exact ⟨_, rfl⟩

theorem Replaces.found {call : CheckpointCall} {version : Nat}
    (replaces : s.Replaces call scope version) : ∃ checkpoint, s.slot scope = some ⟨version, checkpoint⟩ := by
  obtain ⟨⟨snapshot, asks, rfl, expects, unknown⟩, succeeds⟩ := replaces
  have matched : matchesExpectedVersion (s.slot snapshot.scope) snapshot.expectedVersion = true := by
    by_contra refused
    obtain ⟨e, failed⟩ := step_refused asks unknown refused
    exact succeeds e failed
  obtain ⟨expected, same, rfl⟩ := Option.map_eq_some_iff.mp expects
  rw [same] at matched
  obtain ⟨⟨version, checkpoint⟩, found, at_⟩ := (Option.any_eq_true ..).mp matched
  obtain rfl : version = expected.value := eq_of_beq at_
  exact ⟨checkpoint, found⟩

end CheckpointStore

/-- As long as no scope gets a slot again after it lost one, versions are kept. -/
theorem checkpoint_versions_kept (limits : CheckpointStoreLimits) (calls : List CheckpointCall)
    (once : ((CheckpointStore.new limits).openedScopes calls).Nodup) : (CheckpointStore.new limits).VersionsKept calls := by
  have along {first rest : List CheckpointCall} (whole : calls = first ++ rest) :
      ((CheckpointStore.new limits).run first).Recorded ((CheckpointStore.new limits).openedScopes first)
        ((CheckpointStore.new limits).reports first) := by
    rw [whole, CheckpointStore.openedScopes_append] at once
    simpa using (CheckpointStore.recorded_new limits).run (by simpa using (List.nodup_append.mp once).1)
  have final := along (List.append_nil calls).symm
  refine ⟨fun first second rest whole scope a b before after => ?_, fun r member r' member' scopes versions => ?_,
    fun first call rest whole scope version replaces => ?_⟩
  · have early := (along (whole.trans (List.append_assoc ..))).current scope a before
    have late := (along whole).current scope b after
    have still := CheckpointStore.reports_append (CheckpointStore.new limits) first second ▸ List.mem_append_left _ early.1
    refine ⟨late.2 _ still rfl, fun same => ?_⟩
    have equal := (along whole).unique _ still _ late.1 rfl same
    obtain ⟨version, checkpoint⟩ := a
    obtain ⟨version', checkpoint'⟩ := b
    cases equal
    rfl
  · exact congrArg CheckpointReport.checkpoint (final.unique r member r' member' scopes versions)
  · obtain ⟨checkpoint, found⟩ := replaces.found
    have known := ((along whole).current scope _ found).1
    refine ⟨checkpoint, found, known, fun r member same at_ => ?_⟩
    have inside : ⟨scope, version, checkpoint⟩ ∈ (CheckpointStore.new limits).reports calls := by
      rw [whole, CheckpointStore.reports_append]
      exact List.mem_append_left _ known
    exact congrArg CheckpointReport.checkpoint (final.unique r member _ inside same at_)

/-! ### An evicted slot -/

def sampleFingerprint : JsString := js "sha256:" ++ ⟨List.replicate 64 97⟩

def sampleCheckpoint (conversation checkpoint : String) : Json := Json.object [
  ("version", .num (.ofNat 1)), ("provider_id", .str (js "p")), ("checkpoint_id", .str (js checkpoint)),
  ("format", .str (js "f")), ("opaque_state", .str (js "b3")),
  ("context_fingerprint", .str sampleFingerprint),
  ("history_position", Json.object [
    ("conversation_id", .str (js conversation)), ("revision", .num (.ofNat 1)), ("event_id", .str (js "e"))])]

def sampleRequest (conversation key : String) (expected : Json) : List (String × Json) := [
  ("conversation_id", .str (js conversation)), ("context_fingerprint", .str sampleFingerprint),
  ("expected_version", expected), ("idempotency_key", .str (js key))]

def sampleSave (conversation checkpoint : String) (expected : Json) : CheckpointCall :=
  .save ⟨Json.object (sampleRequest conversation checkpoint expected ++
    [("checkpoint", sampleCheckpoint conversation checkpoint)]), .signal false⟩

def sampleInvalidate (conversation : String) (expected : Json) : CheckpointCall :=
  .invalidate ⟨Json.object (sampleRequest conversation "gone" expected), .signal false⟩

def tightLimits : CheckpointStoreLimits := ⟨70000, 1, 2000, by decide, by decide, by decide⟩

def sampleEvicting : List CheckpointCall := [sampleSave "a" "1" .null, sampleInvalidate "a" (.num (.ofNat 1)),
  sampleSave "a" "2" .null, sampleSave "b" "3" .null]

/-- An invalidated scope goes on counting, and loses its slot to another scope. -/
theorem checkpoint_versions_kept_evicted :
    ((CheckpointStore.new tightLimits).reports sampleEvicting).map CheckpointReport.version = [1, 2, 3, 1] ∧
    ((CheckpointStore.new tightLimits).run sampleEvicting).slots.size = 1 ∧
    (CheckpointStore.new tightLimits).VersionsKept sampleEvicting :=
  ⟨by decide +kernel, by decide +kernel, checkpoint_versions_kept tightLimits _ (by decide +kernel)⟩

/-- A slot that was evicted counts from one again, and an old version replaces a checkpoint that it never had. -/
theorem evicted_version_reused : ∃ calls,
    calls = [sampleSave "a" "1" .null, sampleSave "b" "2" .null, sampleSave "a" "3" .null,
      sampleSave "a" "4" (.num (.ofNat 1))] ∧
    ((CheckpointStore.new tightLimits).reports calls).map CheckpointReport.version = [1, 1, 1, 2] ∧
    ¬(CheckpointStore.new tightLimits).VersionsKept calls := by
  have clash : ((CheckpointStore.new tightLimits).reports [sampleSave "a" "1" .null, sampleSave "b" "2" .null,
      sampleSave "a" "3" .null, sampleSave "a" "4" (.num (.ofNat 1))]).map CheckpointReport.version = [1, 1, 1, 2] ∧
      ∃ r ∈ (CheckpointStore.new tightLimits).reports [sampleSave "a" "1" .null, sampleSave "b" "2" .null,
        sampleSave "a" "3" .null, sampleSave "a" "4" (.num (.ofNat 1))],
      ∃ r' ∈ (CheckpointStore.new tightLimits).reports [sampleSave "a" "1" .null, sampleSave "b" "2" .null,
        sampleSave "a" "3" .null, sampleSave "a" "4" (.num (.ofNat 1))],
      r.scope = r'.scope ∧ r.version = r'.version ∧ r.checkpoint ≠ r'.checkpoint := by decide +kernel
  obtain ⟨versions, r, member, r', member', scope, version, different⟩ := clash
  exact ⟨_, rfl, versions, fun kept => different (kept.reports r member r' member' scope version)⟩

end Handrail.ProviderContext

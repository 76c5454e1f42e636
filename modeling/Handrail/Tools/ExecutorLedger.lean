import Handrail.Tools.Executor

/-!
# At most one execution of a key

Neither of the two layers that join repeated calls is removed before the other can answer: an entry
of the ledger is never removed, and it is created in the step that finds none. So whatever the calls
do, every key is executed once, and what the ledger retains never changes.
-/

namespace Handrail.Tools
open Js Conversation

def ToolError.own : ToolError → Bool
  | .invalidOutput | .executionFailed | .resultUnrecorded => false
  | _ => true

theorem own_abortError (timedOut : Bool) : (abortError timedOut).own = true := by
  cases timedOut <;> rfl

def ExecutionPhase.past : ExecutionPhase → Bool
  | .starting | .acquiring => false
  | _ => true

def ExecutionPhase.Leads (before after : ExecutionPhase) : Prop :=
  (∀ result, before = .settled result → after = .settled result) ∧ (before.past = true → after.past = true)

theorem ExecutionPhase.Leads.refl (phase : ExecutionPhase) : phase.Leads phase := ⟨fun _ => id, id⟩

theorem ExecutionPhase.Leads.trans {a b c : ExecutionPhase} (first : a.Leads b) (second : b.Leads c) : a.Leads c :=
  ⟨fun result settled => second.1 result (first.1 result settled), fun past => second.2 (first.2 past)⟩

namespace LedgerEntry
variable {Ref : Type} (entry : LedgerEntry Ref)

theorem work_eq (reading : ExecutionReading) :
    ∃ phase, entry.work reading = { entry with phase := phase } ∧ entry.phase.Leads phase := by
  obtain ⟨fingerprint, creator, toolCallId, name, claimed, phase⟩ := entry
  cases phase <;> cases reading <;> cases claimed <;>
    exact ⟨_, rfl, by simp [ExecutionPhase.Leads, ExecutionPhase.past]⟩

/-- It calls the executor function when it leaves the limiter, and is past that then. -/
theorem invokes_past {reading : ExecutionReading} (invokes : entry.invokes reading = true) :
    entry.phase.past = false ∧ (entry.work reading).phase.past = true := by
  unfold LedgerEntry.invokes at invokes
  split at invokes
  · rename_i acquiring
    simp [work, acquiring, ExecutionPhase.past]
  · cases invokes

end LedgerEntry

namespace ExecutorState
variable {Executor Ref : Type} {s t : ExecutorState Executor Ref}

def OwnError (call : Call Executor Ref) (result : ToolResult) : Prop :=
  ∃ error : ToolError, error.own = true ∧ result = errorResult call.toolCallId call.name error

def Retains (s : ExecutorState Executor Ref) (call : Call Executor Ref) (entry : LedgerEntry Ref) : Prop :=
  s.ledger call.key = some entry ∧ entry.fingerprint = call.fingerprint

def SameRequest (call other : Call Executor Ref) : Prop :=
  other.key = call.key ∧ other.fingerprint = call.fingerprint ∧ other.toolCallId = call.toolCallId ∧
    other.name = call.name

def PhaseSound (s : ExecutorState Executor Ref) (call : Call Executor Ref) : CallPhase Ref → Prop
  | .joined owner => ∃ other, s.calls owner = some other ∧ SameRequest call other
  | .authorizing | .claiming => True
  | .waiting _ => ∃ entry, s.Retains call entry
  | .finished outcome true => ∃ entry result, s.Retains call entry ∧ entry.phase = .settled (some result) ∧
      outcome = .returned (.completed result)
  | .finished outcome false => ∀ result, outcome = .returned (.completed result) → OwnError call result

structure CallSound (s : ExecutorState Executor Ref) (call : Call Executor Ref) : Prop where
  identified : ∀ fingerprint, call.fingerprint = some fingerprint →
    ∃ arguments_, fingerprint = toolRequestFingerprint call.toolCallId call.name arguments_
  phase : s.PhaseSound call call.phase

def Names (s : ExecutorState Executor Ref) (ref : Ref) (key : Identifier) (fingerprint : Option JsString) : Prop :=
  ∃ call, s.calls ref = some call ∧ call.key = key ∧ call.fingerprint = fingerprint

structure Sound (s : ExecutorState Executor Ref) : Prop where
  calls : ∀ ref call, s.calls ref = some call → s.CallSound call
  entries : ∀ key entry, s.ledger key = some entry → s.Names entry.creator key entry.fingerprint
  operations : ∀ executor key operation, s.operations executor key = some operation →
    s.Names operation.owner key operation.fingerprint
  invoked : ∀ invocation ∈ s.invocations, ∃ entry, s.ledger invocation.1 = some entry ∧
    entry.creator = invocation.2 ∧ entry.phase.past = true
  once : (s.invocations.map Prod.fst).Nodup

/-! ### What never changes -/

structure Grows (s t : ExecutorState Executor Ref) : Prop where
  calls : ∀ ref call, s.calls ref = some call → ∃ phase, t.calls ref = some { call with phase := phase }
  ledger : ∀ key entry, s.ledger key = some entry →
    ∃ phase, t.ledger key = some { entry with phase := phase } ∧ entry.phase.Leads phase

theorem Grows.refl (s : ExecutorState Executor Ref) : s.Grows s :=
  ⟨fun _ call found => ⟨call.phase, found⟩, fun _ entry found => ⟨entry.phase, found, .refl _⟩⟩

theorem Grows.trans {u : ExecutorState Executor Ref} (first : s.Grows t) (second : t.Grows u) : s.Grows u := by
  constructor
  · intro ref call found
    obtain ⟨phase, later⟩ := first.calls ref call found
    obtain ⟨phase', latest⟩ := second.calls ref _ later
    exact ⟨phase', latest⟩
  · intro key entry found
    obtain ⟨phase, later, leads⟩ := first.ledger key entry found
    obtain ⟨phase', latest, leads'⟩ := second.ledger key _ later
    exact ⟨phase', latest, leads.trans leads'⟩

theorem Grows.retains (grows : s.Grows t) {call : Call Executor Ref} {entry : LedgerEntry Ref}
    (retains : s.Retains call entry) :
    ∃ phase, t.Retains call { entry with phase := phase } ∧ entry.phase.Leads phase := by
  obtain ⟨phase, later, leads⟩ := grows.ledger _ _ retains.1
  exact ⟨phase, ⟨later, retains.2⟩, leads⟩

theorem Grows.phase (grows : s.Grows t) {call : Call Executor Ref} {phase : CallPhase Ref}
    (sound : s.PhaseSound call phase) : t.PhaseSound call phase := by
  cases phase with
  | joined owner =>
    obtain ⟨other, found, same⟩ := sound
    obtain ⟨phase, later⟩ := grows.calls owner other found
    exact ⟨_, later, same⟩
  | authorizing => trivial
  | claiming => trivial
  | waiting reason =>
    obtain ⟨entry, retains⟩ := sound
    obtain ⟨phase, later, _⟩ := grows.retains retains
    exact ⟨_, later⟩
  | finished outcome fromLedger =>
    cases fromLedger with
    | false => exact sound
    | true =>
      obtain ⟨entry, result, retains, settled, same⟩ := sound
      obtain ⟨phase, later, leads⟩ := grows.retains retains
      exact ⟨_, result, later, leads.1 _ settled, same⟩

theorem Grows.call (grows : s.Grows t) {call : Call Executor Ref} (sound : s.CallSound call) : t.CallSound call :=
  ⟨sound.identified, grows.phase sound.phase⟩

theorem Grows.names (grows : s.Grows t) {ref : Ref} {key : Identifier} {fingerprint : Option JsString}
    (names : s.Names ref key fingerprint) : t.Names ref key fingerprint := by
  obtain ⟨call, found, key, fingerprint⟩ := names
  obtain ⟨phase, later⟩ := grows.calls ref call found
  exact ⟨_, later, key, fingerprint⟩

theorem Sound.grow (sound : s.Sound) (grows : s.Grows t)
    (calls : ∀ ref call, t.calls ref = some call → t.CallSound call ∨ s.calls ref = some call)
    (entries : ∀ key entry, t.ledger key = some entry → t.Names entry.creator key entry.fingerprint ∨
      ∃ old phase, s.ledger key = some old ∧ entry = { old with phase := phase })
    (operations : ∀ executor key operation, t.operations executor key = some operation →
      t.Names operation.owner key operation.fingerprint ∨ s.operations executor key = some operation)
    (invocations : t.invocations = s.invocations ∨ ∃ key ref entry later, t.invocations = s.invocations ++ [(key, ref)] ∧
      s.ledger key = some entry ∧ entry.phase.past = false ∧
      t.ledger key = some later ∧ later.creator = ref ∧ later.phase.past = true) : t.Sound := by
  have invoked (invocation : Identifier × Ref) (inside : invocation ∈ s.invocations) :
      ∃ entry, t.ledger invocation.1 = some entry ∧ entry.creator = invocation.2 ∧ entry.phase.past = true := by
    obtain ⟨entry, found, creator, past⟩ := sound.invoked invocation inside
    obtain ⟨phase, later, leads⟩ := grows.ledger _ entry found
    exact ⟨_, later, creator, leads.2 past⟩
  constructor
  · intro ref call found
    rcases calls ref call found with now | before
    · exact now
    · exact grows.call (sound.calls ref call before)
  · intro key entry found
    rcases entries key entry found with now | ⟨old, phase, before, rfl⟩
    · exact now
    · exact grows.names (sound.entries key old before)
  · intro executor key operation found
    rcases operations executor key operation found with now | before
    · exact now
    · exact grows.names (sound.operations executor key operation before)
  · intro invocation inside
    rcases invocations with same | ⟨key, ref, entry, later, added, _, _, found, creator, past⟩
    · exact invoked invocation (same ▸ inside)
    · rw [added] at inside
      rcases List.mem_append.mp inside with before | now
      · exact invoked invocation before
      · obtain rfl := List.mem_singleton.mp now
        exact ⟨later, found, creator, past⟩
  · rcases invocations with same | ⟨key, ref, entry, later, added, before, fresh, _⟩
    · exact same ▸ sound.once
    · rw [added, List.map_append, List.map_singleton]
      apply List.nodup_append.mpr
      refine ⟨sound.once, List.nodup_singleton _, ?_⟩
      -- An invocation under the key would be past the limiter already.
      intro other listed last here
      obtain rfl := List.mem_singleton.mp here
      intro same
      obtain ⟨invocation, inside, rfl⟩ := List.mem_map.mp listed
      obtain ⟨old, found, _, past⟩ := sound.invoked invocation inside
      rw [same, before] at found
      obtain rfl := Option.some.inj found
      exact Bool.false_ne_true (fresh.symm.trans past)

/-! ### One step -/

/-- The request of a call at `ref` is the one that it had, if it had one. -/
def Continues (s : ExecutorState Executor Ref) (ref : Ref) (call : Call Executor Ref) : Prop :=
  ∀ old, s.calls ref = some old → ∃ phase, call = { old with phase := phase }

section
variable [DecidableEq Executor] [DecidableEq Ref]

inductive Change (s : ExecutorState Executor Ref) (ref : Ref) : ExecutorState Executor Ref → Prop
  | idle : Change s ref s
  | call {call} (continues : s.Continues ref call) (sound : s.CallSound call) : Change s ref (s.setCall ref call)
  | operate {call} (continues : s.Continues ref call) (sound : s.CallSound call)
    (free : s.operations call.executor call.key = none) :
    Change s ref { s.setCall ref call with
      operations := Function.update s.operations call.executor
        (Function.update (s.operations call.executor) call.key (some ⟨call.fingerprint, ref⟩)) }
  | create {call claimed} (continues : s.Continues ref call)
    (identified : ∀ fingerprint, call.fingerprint = some fingerprint →
      ∃ arguments_, fingerprint = toolRequestFingerprint call.toolCallId call.name arguments_)
    (waits : call.phase = .waiting .executing) (missing : s.ledger call.key = none) :
    Change s ref { s.setCall ref call with
      ledger := Function.update s.ledger call.key
        (some ⟨call.fingerprint, ref, call.toolCallId, call.name, claimed, .starting⟩) }
  | work {key entry reading} (found : s.ledger key = some entry) (creator : entry.creator = ref) :
    Change s ref { s with
      ledger := Function.update s.ledger key (some (entry.work reading))
      invocations := s.invocations ++ (if entry.invokes reading then [(key, ref)] else []) }
  | forget {executor key} (owner : (s.operations executor key).any (·.owner = ref) = true) :
    Change s ref { s with
      operations := Function.update s.operations executor (Function.update (s.operations executor) key none) }

omit [DecidableEq Executor] in
theorem setCall_grows {ref : Ref} {call : Call Executor Ref} (continues : s.Continues ref call)
    {ledger : Identifier → Option (LedgerEntry Ref)} {operations : Executor → Identifier → Option (Operation Ref)}
    {invocations : List (Identifier × Ref)}
    (kept : ∀ key entry, s.ledger key = some entry →
      ∃ phase, ledger key = some { entry with phase := phase } ∧ entry.phase.Leads phase) :
    s.Grows ⟨Function.update s.calls ref (some call), ledger, operations, invocations⟩ := by
  refine ⟨fun other old found => ?_, kept⟩
  by_cases here : other = ref
  · subst here
    obtain ⟨phase, rfl⟩ := continues old found
    exact ⟨phase, by simp⟩
  · exact ⟨old.phase, by simpa [here] using found⟩

theorem Change.grows {ref : Ref} (change : Change s ref t) : s.Grows t := by
  have same (key : Identifier) (entry : LedgerEntry Ref) (found : s.ledger key = some entry) :
      ∃ phase, s.ledger key = some { entry with phase := phase } ∧ entry.phase.Leads phase :=
    ⟨entry.phase, found, .refl _⟩
  cases change with
  | idle => exact .refl s
  | call continues _ => exact setCall_grows continues same
  | operate continues _ _ => exact setCall_grows continues same
  | @create call claimed continues _ _ missing =>
    apply setCall_grows continues
    intro key entry found
    by_cases here : key = call.key
    · rw [here, missing] at found
      cases found
    · exact ⟨entry.phase, by simpa [here] using found, .refl _⟩
  | @work key entry reading found creator =>
    refine ⟨fun _ call found => ⟨call.phase, found⟩, fun other old found' => ?_⟩
    by_cases here : other = key
    · subst here
      obtain rfl := Option.some.inj (found.symm.trans found')
      obtain ⟨phase, worked, leads⟩ := entry.work_eq reading
      exact ⟨phase, by simp [worked], leads⟩
    · exact ⟨old.phase, by simpa [here] using found', .refl _⟩
  | forget _ => exact ⟨fun _ call found => ⟨call.phase, found⟩, same⟩

omit [DecidableEq Executor] in
theorem calls_setCall {ref other : Ref} {call found : Call Executor Ref}
    (at_ : Function.update s.calls ref (some call) other = some found) :
    found = call ∨ s.calls other = some found := by
  by_cases here : other = ref
  · subst here
    rw [Function.update_self] at at_
    exact .inl (Option.some.inj at_).symm
  · rw [Function.update_of_ne here] at at_
    exact .inr at_

theorem Sound.change (sound : s.Sound) {ref : Ref} (change : Change s ref t) : t.Sound := by
  have grows := change.grows
  have entries {key : Identifier} {entry : LedgerEntry Ref} (found : s.ledger key = some entry) :
      ∃ old phase, s.ledger key = some old ∧ entry = { old with phase := phase } := ⟨entry, entry.phase, found, rfl⟩
  cases change with
  | idle => exact sound
  | call _ callSound =>
    apply sound.grow grows
    · intro other found at_
      rcases calls_setCall at_ with rfl | before
      · exact .inl (grows.call callSound)
      · exact .inr before
    · exact fun _ _ found => .inr (entries found)
    · exact fun _ _ _ found => .inr found
    · exact .inl rfl
  | @operate call _ callSound _ =>
    apply sound.grow grows
    · intro other found at_
      rcases calls_setCall at_ with rfl | before
      · exact .inl (grows.call callSound)
      · exact .inr before
    · exact fun _ _ found => .inr (entries found)
    · intro executor key operation found
      by_cases here : executor = call.executor
      · subst here
        by_cases same : key = call.key
        · subst same
          simp only [Function.update_self, Option.some.injEq] at found
          subst found
          exact .inl ⟨call, by simp [setCall], rfl, rfl⟩
        · exact .inr (by simpa [same] using found)
      · exact .inr (by simpa [here] using found)
    · exact .inl rfl
  | @create call claimed _ identified waits missing =>
    apply sound.grow grows
    · intro other found at_
      rcases calls_setCall at_ with rfl | before
      · refine .inl ⟨identified, ?_⟩
        rw [waits]
        exact ⟨_, Function.update_self .., rfl⟩
      · exact .inr before
    · intro key entry found
      by_cases here : key = call.key
      · subst here
        simp only [Function.update_self, Option.some.injEq] at found
        subst found
        exact .inl ⟨call, by simp [setCall], rfl, rfl⟩
      · exact .inr (entries (by simpa [here] using found))
    · exact fun _ _ _ found => .inr found
    · exact .inl rfl
  | @work key entry reading found creator =>
    obtain ⟨phase, same, _⟩ := entry.work_eq reading
    apply sound.grow grows
    · exact fun _ _ found => .inr found
    · intro other worked found'
      by_cases here : other = key
      · subst here
        simp only [Function.update_self, Option.some.injEq] at found'
        exact .inr ⟨entry, phase, found, found'.symm.trans same⟩
      · exact .inr (entries (by simpa [here] using found'))
    · exact fun _ _ _ found => .inr found
    · by_cases invokes : entry.invokes reading = true
      · obtain ⟨fresh, past⟩ := entry.invokes_past invokes
        exact .inr ⟨key, ref, entry, entry.work reading, by rw [if_pos invokes], found, fresh, by simp, same ▸ creator, past⟩
      · exact .inl (by rw [if_neg invokes, List.append_nil])
  | @forget executor key _ =>
    apply sound.grow grows
    · exact fun _ _ found => .inr found
    · exact fun _ _ found => .inr (entries found)
    · intro other other' operation found
      by_cases same : other = executor
      · subst same
        by_cases here : other' = key
        · simp [here] at found
        · exact .inr (by simpa [here] using found)
      · exact .inr (by simpa [same] using found)
    · exact .inl rfl

/-! ### The steps are changes -/

theorem Sound.phase (sound : s.Sound) {ref : Ref} {call : Call Executor Ref} (found : s.calls ref = some call)
    (phase : CallPhase Ref) (holds : s.PhaseSound call phase) :
    Change s ref (s.setCall ref { call with phase := phase }) := by
  refine .call (fun old at_ => ⟨phase, ?_⟩) ⟨(sound.calls ref call found).identified, ?_⟩
  · rw [found] at at_
    rw [Option.some.inj at_]
  · cases phase <;> exact holds

theorem Sound.own (sound : s.Sound) {ref : Ref} {call : Call Executor Ref} (found : s.calls ref = some call)
    {outcome : CallOutcome} (own : ∀ result, outcome = .returned (.completed result) → OwnError call result) :
    Change s ref (s.setCall ref { call with phase := .finished outcome false }) :=
  sound.phase found (.finished outcome false) own

theorem Sound.fails (sound : s.Sound) {ref : Ref} {call : Call Executor Ref} (found : s.calls ref = some call)
    {error : ToolError} (own : error.own = true) : Change s ref (s.setCall ref (call.fails error)) := by
  apply sound.own found
  intro result same
  cases same
  exact ⟨error, own, rfl⟩

omit [DecidableEq Executor] [DecidableEq Ref] in
theorem get_retained {key : Identifier} {fingerprint : Option JsString} (answer : s.get key fingerprint = .retained) :
    ∃ entry, s.ledger key = some entry ∧ entry.fingerprint = fingerprint := by
  unfold get at answer
  split at answer
  · cases answer
  · rename_i entry found
    split at answer
    · rename_i same
      exact ⟨entry, found, same⟩
    · cases answer

omit [DecidableEq Executor] [DecidableEq Ref] in
theorem get_missing {key : Identifier} {fingerprint : Option JsString} (answer : s.get key fingerprint = .missing) :
    s.ledger key = none := by
  unfold get at answer
  split at answer
  · assumption
  · split at answer <;> cases answer

theorem authorize_change (sound : s.Sound) {ref : Ref} {call : Call Executor Ref} (found : s.calls ref = some call)
    (claimed : Bool) : Change s ref (s.authorize ref call claimed) := by
  unfold authorize
  split
  · exact sound.fails found rfl
  · rename_i retained
    exact sound.phase found _ (get_retained retained)
  · rename_i missing
    refine .create (fun old at_ => ⟨.waiting .executing, ?_⟩) (sound.calls ref call found).identified rfl
      (get_missing missing)
    rw [found] at at_
    rw [Option.some.inj at_]

theorem afterPolicy_change (sound : s.Sound) {ref : Ref} {call : Call Executor Ref} (found : s.calls ref = some call)
    (reading : PolicyReading) : Change s ref (s.afterPolicy ref call reading) := by
  cases reading with
  | allow => exact authorize_change sound found false
  | externalApprovalRequired coordinated =>
    simp only [afterPolicy]
    split
    · exact sound.phase found .claiming trivial
    · exact sound.own found (fun _ same => by cases same)
  | aborted timedOut => exact sound.fails found (own_abortError timedOut)
  | deny | invalid | failed => exact sound.fails found rfl

theorem afterClaim_change (sound : s.Sound) {ref : Ref} {call : Call Executor Ref} (found : s.calls ref = some call)
    (reading : ClaimReading) : Change s ref (s.afterClaim ref call reading) := by
  cases reading with
  | approvalRequired => exact sound.own found (fun _ same => by cases same)
  | reuse =>
    simp only [afterClaim]
    split
    · exact sound.fails found rfl
    · exact sound.fails found rfl
    · rename_i retained
      exact sound.phase found _ (get_retained retained)
  | claimed => exact authorize_change sound found true
  | aborted timedOut => exact sound.fails found (own_abortError timedOut)
  | cancelled | unavailable | refused | failed => exact sound.fails found rfl

theorem receive_change (sound : s.Sound) {ref : Ref} {call : Call Executor Ref} (found : s.calls ref = some call)
    {reason : WaitReason} (waits : call.phase = .waiting reason) : Change s ref (s.receive ref call reason) := by
  unfold receive
  split
  · rename_i result settled
    obtain ⟨entry, retained, phase⟩ := Option.map_eq_some_iff.mp settled
    have holds := (sound.calls ref call found).phase
    rw [waits] at holds
    obtain ⟨entry', retains⟩ := holds
    obtain rfl := Option.some.inj (retained.symm.trans retains.1)
    exact sound.phase found _ ⟨entry, result, retains, phase, rfl⟩
  · cases reason with
    | retained => exact sound.own found (fun _ same => by cases same)
    | reusing => exact sound.fails found rfl
    | executing => exact sound.fails found rfl
  · exact .idle

theorem resume_change (sound : s.Sound) {ref : Ref} {call : Call Executor Ref} (found : s.calls ref = some call) :
    Change s ref (s.resume ref call) := by
  unfold resume
  split
  · rename_i owner joined
    split
    · -- The operation has the request of the call, so its outcome is one of this call too.
      rename_i outcome fromLedger finished
      have holds := (sound.calls ref call found).phase
      rw [joined] at holds
      obtain ⟨other, owned, same⟩ := holds
      obtain ⟨other', owned', phase⟩ := Option.map_eq_some_iff.mp finished
      obtain rfl := Option.some.inj (owned.symm.trans owned')
      have ended := (sound.calls owner other owned).phase
      rw [phase] at ended
      refine sound.phase found _ ?_
      cases fromLedger with
      | true =>
        obtain ⟨entry, result, retains, settled, returned⟩ := ended
        exact ⟨entry, result, ⟨same.1 ▸ retains.1, retains.2.trans same.2.1⟩, settled, returned⟩
      | false =>
        intro result returned
        obtain ⟨error, own, text⟩ := ended result returned
        exact ⟨error, own, by rw [text, same.2.2.1, same.2.2.2]⟩
    · exact .idle
  · rename_i reason waits
    exact receive_change sound found waits
  · exact .idle

theorem abort_change (sound : s.Sound) {ref : Ref} {call : Call Executor Ref} (found : s.calls ref = some call)
    (timedOut : Bool) : Change s ref (s.abort ref call timedOut) := by
  unfold abort
  split
  · exact sound.fails found (own_abortError timedOut)
  · exact sound.fails found (own_abortError timedOut)
  · exact .idle

theorem forget_change {ref : Ref} {call : Call Executor Ref} : Change s ref (s.forget ref call) := by
  unfold forget
  split
  · split
    · rename_i owner
      exact .forget owner
    · exact .idle
  · exact .idle

theorem work_change {ref : Ref} {call : Call Executor Ref} (reading : ExecutionReading) :
    Change s ref (s.work ref call reading) := by
  unfold work
  split
  · exact .idle
  · rename_i entry found
    split
    · rename_i creator
      exact .work found creator
    · exact .idle

omit [DecidableEq Executor] [DecidableEq Ref] in
/-- A request is refused before it has a fingerprint, or its fingerprint is the one of its call. -/
theorem admitted_sound (executor : Executor) (request : ExecutionRequest) :
    let call : Call Executor Ref := admitted executor request
    (call.fingerprint = none → s.PhaseSound call call.phase) ∧ ∀ fingerprint, call.fingerprint = some fingerprint →
      ∃ arguments_, fingerprint = toolRequestFingerprint call.toolCallId call.name arguments_ := by
  intro call
  have refused {base : Call Executor Ref} (error : ToolError) (own : error.own = true) (none : base.fingerprint = none)
      (same : call = base.fails error) : (call.fingerprint = Option.none → s.PhaseSound call call.phase) ∧
        ∀ fingerprint, call.fingerprint = some fingerprint →
          ∃ arguments_, fingerprint = toolRequestFingerprint call.toolCallId call.name arguments_ := by
    rw [same]
    refine ⟨fun _ result returned => ?_, fun fingerprint given => ?_⟩
    · cases returned
      exact ⟨error, own, rfl⟩
    · cases none.symm.trans given
  by_cases valid : (safeIdentifier request.call.toolCallId unknownToolCall).text ≠ request.call.toolCallId ∨
      (safeIdentifier request.call.name unknownTool).text ≠ request.call.name ∨
      request.executionKey.getD (safeIdentifier request.call.toolCallId unknownToolCall).text ≠
        (safeIdentifier (request.executionKey.getD (safeIdentifier request.call.toolCallId unknownToolCall).text)
          invalidExecutionKey).text
  · refine refused .invalidIdentifiers rfl ?_ (if_pos valid)
    rfl
  · have same : call = _ := if_neg valid
    cases cloned : cloneArguments request.call.arguments with
    | none =>
      rw [cloned] at same
      refine refused .invalidArguments rfl ?_ same
      rfl
    | some arguments_ =>
      rw [cloned] at same
      rw [same]
      refine ⟨fun none => ?_, fun fingerprint given => ⟨arguments_, (Option.some.inj given).symm⟩⟩
      cases none

omit [DecidableEq Executor] [DecidableEq Ref] in
theorem disclose_identity (call : Call Executor Ref) (reading : DisclosureReading) : (disclose call reading).key = call.key ∧
    (disclose call reading).executor = call.executor ∧ (disclose call reading).fingerprint = call.fingerprint := by
  cases reading <;> exact ⟨rfl, rfl, rfl⟩

theorem enter_change (sound : s.Sound) {ref : Ref} (fresh : s.calls ref = none) {call : Call Executor Ref}
    (identified : ∃ arguments_, call.fingerprint = some (toolRequestFingerprint call.toolCallId call.name arguments_))
    (reading : DisclosureReading) : Change s ref (s.enter ref call reading) := by
  have continues (call : Call Executor Ref) : s.Continues ref call := by
    intro old found
    cases fresh.symm.trans found
  obtain ⟨arguments_, fingerprint⟩ := identified
  have own : ∀ given, call.fingerprint = some given →
      ∃ arguments_, given = toolRequestFingerprint call.toolCallId call.name arguments_ :=
    fun given same => ⟨arguments_, Option.some.inj (same.symm.trans fingerprint)⟩
  have fails {error : ToolError} (owned : error.own = true) : s.CallSound (call.fails error) := by
    refine ⟨own, fun result returned => ?_⟩
    cases returned
    exact ⟨error, owned, rfl⟩
  have disclosed : s.CallSound (disclose call reading) := by
    cases reading with
    | disclosed => exact ⟨own, trivial⟩
    | aborted | unavailable | invalidArguments => exact fails rfl
  have disclosedKey := disclose_identity call reading
  unfold enter
  split
  · exact .call (continues _) disclosed
  · split
    · exact .call (continues _) (fails rfl)
    · rename_i retained
      exact .call (continues _) ⟨own, get_retained retained⟩
    · split
      · rename_i operation found
        split
        · rename_i same
          -- The owner has the fingerprint, so it has the identifiers.
          obtain ⟨other, owned, key, print⟩ := sound.operations _ _ _ found
          have print : other.fingerprint = call.fingerprint := print.trans same
          obtain ⟨arguments', given⟩ := (sound.calls _ _ owned).identified _ (print.trans fingerprint)
          obtain ⟨toolCallId, name⟩ := toolRequestFingerprint_inj given
          exact .call (continues _) ⟨own, other, owned, key, print, toolCallId.symm, name.symm⟩
        · exact .call (continues _) (fails rfl)
      · rename_i free
        have change := Change.operate (s := s) (continues (disclose call reading)) disclosed
        rw [disclosedKey.1, disclosedKey.2.1, disclosedKey.2.2] at change
        exact change free

/-- A step changes its own call, and at most one entry of the ledger and one operation. -/
theorem step_change (sound : s.Sound) (ref : Ref) (move : Move Executor) : Change s ref (s.step ref move) := by
  unfold step
  split
  · rename_i fresh
    split
    · rename_i executor request reading
      obtain ⟨refused, identified⟩ := admitted_sound (s := s) executor request
      unfold execute
      dsimp only
      split
      · rename_i none
        refine .call (fun old found => ?_) ⟨identified, refused (Option.isNone_iff_eq_none.mp none)⟩
        cases fresh.symm.trans found
      · rename_i given
        obtain ⟨fingerprint, given⟩ := Option.ne_none_iff_exists'.mp (mt Option.isNone_iff_eq_none.mpr given)
        obtain ⟨arguments_, rfl⟩ := identified fingerprint given
        exact enter_change sound fresh ⟨arguments_, given⟩ reading
    · exact .idle
  · rename_i call found
    split
    · exact .idle
    · split
      · exact afterPolicy_change sound found _
      · exact .idle
    · split
      · exact afterClaim_change sound found _
      · exact .idle
    · exact abort_change sound found _
    · exact resume_change sound found
    · exact forget_change
    · exact work_change _

/-! ### Calls that wait -/

/-- What becomes of a call that waits for an entry of the ledger. -/
inductive Answered (call : Call Executor Ref) (entry : LedgerEntry Ref) : WaitReason → Prop
  | waiting {reason} (waits : call.phase = .waiting reason) : Answered call entry reason
  | received {reason result} (settled : entry.phase = .settled (some result))
    (ended : call.phase = .finished (.returned (.completed result)) true) : Answered call entry reason
  | rejected (settled : entry.phase = .settled none) (ended : call.phase = .finished .rejected false) :
    Answered call entry .retained
  | unverified (settled : entry.phase = .settled none) (ended : call.phase = (call.fails .approvalUnverified).phase) :
    Answered call entry .reusing
  | unrecorded (settled : entry.phase = .settled none) (ended : call.phase = (call.fails .unrecorded).phase) :
    Answered call entry .executing
  | aborted {reason timedOut} (other : reason ≠ .retained) (ended : call.phase = (call.fails (abortError timedOut)).phase) :
    Answered call entry reason

/-- A call that has joined an operation ends when the operation does, with its outcome. -/
def Follows (s : ExecutorState Executor Ref) (call : Call Executor Ref) (owner : Ref) : Prop :=
  call.phase = .joined owner ∨ ∃ other outcome fromLedger, s.calls owner = some other ∧
    other.phase = .finished outcome fromLedger ∧ call.phase = .finished outcome fromLedger

variable {ref other owner : Ref} {call : Call Executor Ref} {entry : LedgerEntry Ref} {reason : WaitReason}

omit [DecidableEq Executor] [DecidableEq Ref] in
theorem Answered.leads {phase : ExecutionPhase} (answered : Answered call entry reason) (leads : entry.phase.Leads phase) :
    Answered call { entry with phase := phase } reason := by
  cases answered with
  | waiting waits => exact .waiting waits
  | received settled ended => exact .received (leads.1 _ settled) ended
  | rejected settled ended => exact .rejected (leads.1 _ settled) ended
  | unverified settled ended => exact .unverified (leads.1 _ settled) ended
  | unrecorded settled ended => exact .unrecorded (leads.1 _ settled) ended
  | aborted other ended => exact .aborted other ended

omit [DecidableEq Executor] [DecidableEq Ref] in
theorem Answered.waiting_or_finished (answered : Answered call entry reason) :
    call.phase = .waiting reason ∨ ∃ outcome fromLedger, call.phase = .finished outcome fromLedger := by
  cases answered with
  | waiting waits => exact .inl waits
  | received _ ended | rejected _ ended | unverified _ ended | unrecorded _ ended | aborted _ ended => exact .inr ⟨_, _, ended⟩

theorem Change.calls_other (change : Change s ref t) (different : other ≠ ref) : t.calls other = s.calls other := by
  cases change with
  | idle | work | forget => rfl
  | call | operate | create => exact Function.update_of_ne different ..

omit [DecidableEq Executor] in
theorem work_calls (reading : ExecutionReading) : (s.work ref call reading).calls = s.calls := by
  unfold work
  split
  · rfl
  · split <;> rfl

theorem forget_calls : (s.forget ref call).calls = s.calls := by
  unfold forget
  split
  · split <;> rfl
  · rfl

theorem step_finished {outcome : CallOutcome} {fromLedger : Bool} (sound : s.Sound) (found : s.calls ref = some call)
    (ended : call.phase = .finished outcome fromLedger) (other : Ref) (move : Move Executor) :
    (s.step other move).calls ref = some call := by
  by_cases here : other = ref
  · subst here
    unfold step
    rw [found]
    cases move with
    | execute => exact found
    | decide | claim => simpa only [ended] using found
    | abort => simpa only [abort, ended] using found
    | resume => simpa only [resume, ended] using found
    | forget => exact (congrFun forget_calls other).trans found
    | work reading => exact (congrFun (work_calls reading) other).trans found
  · rw [(step_change sound other move).calls_other (Ne.symm here)]
    exact found

/-- What the call's own moves make of it. -/
theorem step_waiting (found : s.calls ref = some call) (waits : call.phase = .waiting reason) (move : Move Executor) :
    (s.step ref move).calls ref = some call ∨ s.step ref move = s.receive ref call reason ∨
      reason ≠ .retained ∧ ∃ timedOut, s.step ref move = s.setCall ref (call.fails (abortError timedOut)) := by
  unfold step
  rw [found]
  cases move with
  | execute => exact .inl found
  | decide | claim =>
    dsimp only
    rw [waits]
    exact .inl found
  | abort timedOut =>
    dsimp only [abort]
    rw [waits]
    cases reason with
    | retained => exact .inl found
    | reusing | executing => exact .inr (.inr ⟨by decide, timedOut, rfl⟩)
  | resume =>
    dsimp only [resume]
    rw [waits]
    exact .inr (.inl rfl)
  | forget => exact .inl ((congrFun forget_calls ref).trans found)
  | work reading => exact .inl ((congrFun (work_calls reading) ref).trans found)

omit [DecidableEq Executor] in
theorem receive_answers (found : s.calls ref = some call) (retains : s.Retains call entry)
    (waits : call.phase = .waiting reason) : ∃ next, (s.receive ref call reason).calls ref = some next ∧
      (s.receive ref call reason).Retains next entry ∧ Answered next entry reason := by
  unfold receive
  rw [retains.1, Option.map_some]
  split
  · rename_i result settled
    exact ⟨_, Function.update_self .., retains, .received (Option.some.inj settled) rfl⟩
  · rename_i settled
    cases reason with
    | retained => exact ⟨_, Function.update_self .., retains, .rejected (Option.some.inj settled) rfl⟩
    | reusing => exact ⟨_, Function.update_self .., retains, .unverified (Option.some.inj settled) rfl⟩
    | executing => exact ⟨_, Function.update_self .., retains, .unrecorded (Option.some.inj settled) rfl⟩
  · exact ⟨call, found, retains, .waiting waits⟩

theorem step_answered (sound : s.Sound) (found : s.calls ref = some call) (retains : s.Retains call entry)
    (answered : Answered call entry reason) (other : Ref) (move : Move Executor) :
    ∃ next later, (s.step other move).calls ref = some next ∧ (s.step other move).Retains next later ∧
      Answered next later reason := by
  have change := step_change sound other move
  obtain ⟨phase, kept, leads⟩ := change.grows.retains retains
  have stays (same : (s.step other move).calls ref = some call) : ∃ next later, (s.step other move).calls ref = some next ∧
      (s.step other move).Retains next later ∧ Answered next later reason := ⟨call, _, same, kept, answered.leads leads⟩
  by_cases here : other = ref
  · subst here
    rcases answered.waiting_or_finished with waits | ⟨outcome, fromLedger, ended⟩
    · rcases step_waiting found waits move with same | received | ⟨late, timedOut, fails⟩
      · exact stays same
      · rw [received]
        obtain ⟨next, at_, retains, answers⟩ := receive_answers found retains waits
        exact ⟨next, entry, at_, retains, answers⟩
      · rw [fails]
        exact ⟨_, entry, Function.update_self .., retains, .aborted late rfl⟩
    · exact stays (step_finished sound found ended other move)
  · exact stays ((change.calls_other (Ne.symm here)).trans found)

theorem step_follows (sound : s.Sound) (found : s.calls ref = some call) (follows : s.Follows call owner) (other : Ref)
    (move : Move Executor) :
    ∃ next, (s.step other move).calls ref = some next ∧ (s.step other move).Follows next owner := by
  rcases follows with joined | ⟨target, outcome, fromLedger, at_, ended, same⟩
  · by_cases here : other = ref
    · subst here
      have stays (same : (s.step other move).calls other = some call) :
          ∃ next, (s.step other move).calls other = some next ∧ (s.step other move).Follows next owner :=
        ⟨call, same, .inl joined⟩
      cases move with
      | execute => exact stays (by simp only [step, found])
      | decide | claim => exact stays (by simp only [step, found, joined])
      | abort => exact stays (by simp only [step, found, abort, joined])
      | forget => exact stays (by simp only [step, found, forget_calls])
      | work => exact stays (by simp only [step, found, work_calls])
      | resume =>
        -- The operation has ended, or the call goes on waiting.
        cases finished : (s.calls owner).map Call.phase with
        | none => exact stays (by simp only [step, found, resume, joined, finished])
        | some phase =>
          obtain ⟨target, at_, rfl⟩ := Option.map_eq_some_iff.mp finished
          cases ended : target.phase with
          | finished outcome fromLedger =>
            have apart : owner ≠ other := by
              rintro rfl
              rw [Option.some.inj (found.symm.trans at_), ended] at joined
              cases joined
            have moved : s.step other .resume = s.setCall other { call with phase := .finished outcome fromLedger } := by
              simp only [step, found, resume, joined, at_, Option.map_some, ended]
            rw [moved]
            refine ⟨_, Function.update_self .., .inr ⟨target, outcome, fromLedger, ?_, ended, rfl⟩⟩
            exact (Function.update_of_ne apart ..).trans at_
          | joined | authorizing | claiming | waiting =>
            exact stays (by simp only [step, found, resume, joined, at_, Option.map_some, ended])
    · exact ⟨call, ((step_change sound other move).calls_other (Ne.symm here)).trans found, .inl joined⟩
  · exact ⟨call, step_finished sound found same other move, .inr
      ⟨target, outcome, fromLedger, step_finished sound at_ ended other move, ended, same⟩⟩

/-! ### Runs -/

omit [DecidableEq Executor] [DecidableEq Ref] in
theorem sound_new : (new : ExecutorState Executor Ref).Sound := by
  constructor
  · intro ref call found
    cases found
  · intro key entry found
    cases found
  · intro executor key operation found
    cases found
  · intro invocation inside
    cases inside
  · exact List.nodup_nil

theorem Sound.run (sound : s.Sound) (moves : List (Ref × Move Executor)) :
    (s.run moves).Sound ∧ s.Grows (s.run moves) := by
  induction moves generalizing s with
  | nil => exact ⟨sound, .refl s⟩
  | cons move rest ih =>
    have change := step_change sound move.1 move.2
    obtain ⟨later, grows⟩ := ih (sound.change change)
    exact ⟨later, change.grows.trans grows⟩

theorem enter_calls (s : ExecutorState Executor Ref) (ref : Ref) (call : Call Executor Ref) (reading : DisclosureReading) :
    ∃ started : Call Executor Ref, started.key = call.key ∧ started.fingerprint = call.fingerprint ∧
      (s.enter ref call reading).calls = Function.update s.calls ref (some started) := by
  have disclosed := disclose_identity call reading
  unfold enter
  split
  · exact ⟨_, disclosed.1, disclosed.2.2, rfl⟩
  · split
    · exact ⟨call.fails .identityConflict, rfl, rfl, rfl⟩
    · exact ⟨{ call with phase := .waiting .retained }, rfl, rfl, rfl⟩
    · split
      · rename_i operation _
        split
        · exact ⟨{ call with phase := .joined operation.owner }, rfl, rfl, rfl⟩
        · exact ⟨call.fails .identityConflict, rfl, rfl, rfl⟩
      · exact ⟨_, disclosed.1, disclosed.2.2, rfl⟩

omit [DecidableEq Executor] [DecidableEq Ref] in
theorem admitted_request (executor : Executor) (request : ExecutionRequest) :
    (admitted executor request : Call Executor Ref).executor = executor ∧
      (admitted executor request : Call Executor Ref).approval = request.approval := by
  unfold admitted
  dsimp only
  split
  · exact ⟨rfl, rfl⟩
  · split <;> exact ⟨rfl, rfl⟩

/-- A call that has a fingerprint has entered the executor. -/
theorem Sound.entered {executor : Executor} {request : ExecutionRequest} {reading : DisclosureReading} (sound : s.Sound)
    (fresh : s.calls ref = none) (rest : List (Ref × Move Executor))
    (last : ((s.step ref (.execute executor request reading)).run rest).calls ref = some call)
    (given : call.fingerprint.isSome = true) :
    ∃ started : Call Executor Ref, started.key = call.key ∧ started.fingerprint = call.fingerprint ∧
      started.executor = executor ∧ started.approval = request.approval ∧
      s.step ref (.execute executor request reading) = s.enter ref started reading := by
  have grows := ((sound.change (step_change sound ref (.execute executor request reading))).run rest).2
  have stepped : s.step ref (.execute executor request reading) = s.execute ref executor request reading := by
    unfold step
    rw [fresh]
  obtain ⟨named, approval⟩ : (admitted executor request : Call Executor Ref).executor = executor ∧ _ :=
    admitted_request executor request
  rw [stepped] at grows last ⊢
  -- What the call is named by stays, whatever its phase.
  have same {started : Call Executor Ref} (at_ : (s.execute ref executor request reading).calls ref = some started) :
      started.key = call.key ∧ started.fingerprint = call.fingerprint := by
    obtain ⟨phase, later⟩ := grows.calls ref started at_
    rw [last] at later
    rw [Option.some.inj later]
    exact ⟨rfl, rfl⟩
  unfold execute at same ⊢
  dsimp only at same ⊢
  split at same
  · rename_i refused
    obtain ⟨-, print⟩ := same (Function.update_self ..)
    rw [← print, Option.isSome_iff_ne_none] at given
    exact (given (Option.isNone_iff_eq_none.mp refused)).elim
  · rename_i printed
    rw [if_neg printed]
    obtain ⟨started, key, print, calls⟩ := enter_calls s ref (admitted executor request) reading
    obtain ⟨sameKey, samePrint⟩ := same (by rw [calls, Function.update_self])
    exact ⟨admitted executor request, key.symm.trans sameKey, print.symm.trans samePrint, named, approval, rfl⟩

theorem run_answered (sound : s.Sound) (found : s.calls ref = some call) (retains : s.Retains call entry)
    (answered : Answered call entry reason) (moves : List (Ref × Move Executor)) :
    ∃ next later, (s.run moves).calls ref = some next ∧ (s.run moves).Retains next later ∧
      Answered next later reason := by
  induction moves generalizing s call entry with
  | nil => exact ⟨call, entry, found, retains, answered⟩
  | cons move rest ih =>
    obtain ⟨next, later, at_, kept, answers⟩ := step_answered sound found retains answered move.1 move.2
    exact ih (sound.change (step_change sound move.1 move.2)) at_ kept answers

/-- A call that joined an operation follows it along every run. -/
theorem run_follows (sound : s.Sound) (found : s.calls ref = some call) (follows : s.Follows call owner)
    (moves : List (Ref × Move Executor)) :
    ∃ next, (s.run moves).calls ref = some next ∧ (s.run moves).Follows next owner := by
  induction moves generalizing s call with
  | nil => exact ⟨call, found, follows⟩
  | cons move rest ih =>
    obtain ⟨next, at_, later⟩ := step_follows sound found follows move.1 move.2
    exact ih (sound.change (step_change sound move.1 move.2)) at_ later

theorem run_append (first rest : List (Ref × Move Executor)) : s.run (first ++ rest) = (s.run first).run rest :=
  List.foldl_append

structure ExecutesOnce (moves : List (Ref × Move Executor)) : Prop where
  /-- No key is invoked twice. -/
  invocations : ((new.run moves).invocations.map Prod.fst).Nodup
  /-- An entry keeps its fingerprint and its creator, and a result that it has retained. -/
  retained : ∀ first rest, moves = first ++ rest → ∀ key entry, (new.run first).ledger key = some entry →
    ∃ phase, (new.run moves).ledger key = some { entry with phase := phase } ∧
      ∀ result, entry.phase = .settled result → phase = .settled result
  /-- A call without approval evidence that finds an entry with its fingerprint waits for it, and nothing but what the
  entry retains ends it. -/
  found : ∀ first rest ref executor request reading call entry,
    moves = first ++ (ref, .execute executor request reading) :: rest → (new.run first).calls ref = none →
    request.approval = false → (new.run moves).calls ref = some call → call.fingerprint.isSome = true →
    (new.run first).Retains call entry →
    ∃ later, (new.run moves).Retains call later ∧ Answered call later .retained
  /-- If it finds no entry but an operation with its fingerprint, it ends with the outcome of that operation. -/
  joined : ∀ first rest ref executor request reading call operation,
    moves = first ++ (ref, .execute executor request reading) :: rest → (new.run first).calls ref = none →
    request.approval = false → (new.run moves).calls ref = some call → call.fingerprint.isSome = true →
    (new.run first).ledger call.key = none → (new.run first).operations executor call.key = some operation →
    operation.fingerprint = call.fingerprint → (new.run moves).Follows call operation.owner
  /-- A call that waits for an entry ends with its result, unless it is aborted or the entry has none. -/
  waits : ∀ first rest ref before reason, moves = first ++ rest → (new.run first).calls ref = some before →
    before.phase = .waiting reason → ∃ call entry, (new.run moves).calls ref = some call ∧
      (new.run moves).Retains call entry ∧ Answered call entry reason
  /-- A completed result is the retained one, or an error that the call made itself. -/
  completed : ∀ ref call result fromLedger, (new.run moves).calls ref = some call →
    call.phase = .finished (.returned (.completed result)) fromLedger →
    (∃ entry, (new.run moves).Retains call entry ∧ entry.phase = .settled (some result)) ∨ OwnError call result
  /-- A call with another fingerprint neither waits for the entry nor has its result or its invocation. -/
  conflicting : ∀ ref call entry, (new.run moves).calls ref = some call →
    (new.run moves).ledger call.key = some entry → entry.fingerprint ≠ call.fingerprint →
    (∀ reason, call.phase ≠ .waiting reason) ∧ (∀ outcome, call.phase ≠ .finished outcome true) ∧
      (∀ result fromLedger, call.phase = .finished (.returned (.completed result)) fromLedger → OwnError call result) ∧
      ∀ invocation ∈ (new.run moves).invocations, invocation.2 ≠ ref

end

/-! ### A refusal after the execution -/

def sampleCallId : Identifier := ⟨js "probe-1", by decide, by decide⟩

def sampleToolName : Identifier := ⟨js "probe", by decide, by decide⟩

def sampleFingerprint : JsString := toolRequestFingerprint sampleCallId sampleToolName []

def sampleRequest (approval : Bool) : ExecutionRequest := ⟨⟨js "probe-1", js "probe", some (.obj [])⟩, none, approval⟩

def deniedRepetition : List (Nat × Move Unit) :=
  [(0, .execute () (sampleRequest false) .disclosed), (0, .decide .allow), (0, .work .started), (0, .work .acquired),
    (0, .work (.returned [.text (js "found")] none)), (0, .resume),
    (1, .execute () (sampleRequest true) .disclosed), (1, .decide .deny)]

end ExecutorState

end Handrail.Tools

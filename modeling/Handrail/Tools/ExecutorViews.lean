import Handrail.Tools.ExecutorLedger
import Handrail.Tools.PermitLine

/-!
# What some of the calls see of the executors

The calls of one caller see each other, the entries that they created and the operations that they
began. As long as they look up nothing that another caller made, and wait for no permit that another
caller keeps from them, they move as if they were alone.
-/

namespace Handrail.Tools
open Js Conversation

namespace ExecutorState
variable {Executor Ref : Type}

def restrict (keep : Ref → Bool) (s : ExecutorState Executor Ref) : ExecutorState Executor Ref where
  calls ref := if keep ref then s.calls ref else none
  ledger key := (s.ledger key).filter fun entry => keep entry.creator
  operations executor key := (s.operations executor key).filter fun operation => keep operation.owner
  invocations := s.invocations.filter fun invocation => keep invocation.2

def ownsEntry (keep : Ref → Bool) (s : ExecutorState Executor Ref) (key : Identifier) : Bool :=
  (s.ledger key).all fun entry => keep entry.creator

def findsOwn (keep : Ref → Bool) (s : ExecutorState Executor Ref) (ref : Ref) : Move Executor → Bool
  | .execute executor request _ =>
    let call : Call Executor Ref := admitted executor request
    (s.calls ref).isSome || call.fingerprint.isNone || call.approval ||
      (s.ownsEntry keep call.key && (s.operations executor call.key).all fun operation => keep operation.owner)
  | .decide .allow => (s.calls ref).all fun call =>
    match call.phase with
    | .authorizing => s.ownsEntry keep call.key
    | _ => true
  | .claim .reuse | .claim .claimed => (s.calls ref).all fun call =>
    match call.phase with
    | .claiming => s.ownsEntry keep call.key
    | _ => true
  | _ => true

def Kept (keep : Ref → Bool) (s : ExecutorState Executor Ref) (call : Call Executor Ref) : Prop :=
  match call.phase with
  | .joined owner => keep owner = true
  | .waiting _ | .finished _ true => ∃ entry, s.ledger call.key = some entry ∧ keep entry.creator = true
  | _ => True

def Isolated (keep : Ref → Bool) (s : ExecutorState Executor Ref) : Prop :=
  ∀ ref call, keep ref = true → s.calls ref = some call → s.Kept keep call

variable {keep : Ref → Bool} {s t : ExecutorState Executor Ref}

theorem restrict_new : (new : ExecutorState Executor Ref).restrict keep = new := by
  have calls : ((new : ExecutorState Executor Ref).restrict keep).calls = new.calls := by
    funext ref
    exact ite_self none
  exact ExecutorState.ext calls rfl rfl rfl

variable {key : Identifier}

theorem ledger_of_restrict {entry : LedgerEntry Ref} (found : (s.restrict keep).ledger key = some entry) :
    s.ledger key = some entry ∧ keep entry.creator = true := Option.filter_eq_some_iff.mp found

theorem isolated_of_sound (sound : (s.restrict keep).Sound) : s.Isolated keep := by
  intro ref call kept found
  have phase := (sound.calls ref call ((if_pos kept).trans found)).phase
  unfold Kept
  split
  · rename_i owner joined
    rw [joined] at phase
    obtain ⟨other, owned, _⟩ := phase
    by_contra hidden
    cases (if_neg hidden).symm.trans owned
  · rename_i reason waits
    rw [waits] at phase
    obtain ⟨entry, retains⟩ := phase
    exact ⟨entry, ledger_of_restrict retains.1⟩
  · rename_i outcome finished
    rw [finished] at phase
    obtain ⟨entry, result, retains, _⟩ := phase
    exact ⟨entry, ledger_of_restrict retains.1⟩
  · trivial

/-! ### Moves of other calls -/

theorem filter_update_hidden {α β : Type} [DecidableEq α] {f : α → Option β} {a : α} {new : Option β} {p : β → Bool}
    (before : (f a).filter p = none) (after : new.filter p = none) (b : α) :
    (Function.update f a new b).filter p = (f b).filter p := by
  by_cases here : b = a
  · subst here
    rw [Function.update_self, before, after]
  · rw [Function.update_of_ne here]

theorem restrict_eq (calls : ∀ ref, keep ref = true → t.calls ref = s.calls ref)
    (ledger : ∀ key, (t.ledger key).filter (fun entry => keep entry.creator) =
      (s.ledger key).filter fun entry => keep entry.creator)
    (operations : ∀ executor key, (t.operations executor key).filter (fun operation => keep operation.owner) =
      (s.operations executor key).filter fun operation => keep operation.owner)
    (invocations : t.invocations.filter (fun invocation => keep invocation.2) =
      s.invocations.filter fun invocation => keep invocation.2) : t.restrict keep = s.restrict keep := by
  have same : (t.restrict keep).calls = (s.restrict keep).calls := by
    funext ref
    by_cases kept : keep ref = true
    · simp [restrict, kept, calls]
    · simp [restrict, kept]
  exact ExecutorState.ext same (funext ledger) (funext fun executor => funext (operations executor)) invocations

section
variable [DecidableEq Executor] [DecidableEq Ref]

omit [DecidableEq Executor] in
theorem calls_hidden {ref other : Ref} (hidden : keep ref = false) (kept : keep other = true)
    (call : Call Executor Ref) : Function.update s.calls ref (some call) other = s.calls other := by
  apply Function.update_of_ne
  intro same
  rw [same, hidden] at kept
  cases kept

omit [DecidableEq Ref] in
theorem operations_hidden {executor : Executor} {new : Option (Operation Ref)}
    (before : (s.operations executor key).filter (fun operation => keep operation.owner) = none)
    (after : new.filter (fun operation => keep operation.owner) = none) (executor' : Executor) (key' : Identifier) :
    (Function.update s.operations executor (Function.update (s.operations executor) key new) executor' key').filter
      (fun operation => keep operation.owner) =
      (s.operations executor' key').filter fun operation => keep operation.owner := by
  by_cases here : executor' = executor
  · subst here
    rw [Function.update_self]
    exact filter_update_hidden before after key'
  · rw [Function.update_of_ne here]

variable {ref : Ref}

theorem Change.hidden (hidden : keep ref = false) (change : Change s ref t) :
    t.restrict keep = s.restrict keep := by
  cases change with
  | idle => rfl
  | call =>
    refine restrict_eq (fun _ kept => ?_) (fun _ => rfl) (fun _ _ => rfl) rfl
    exact calls_hidden hidden kept _
  | @operate call _ _ free =>
    refine restrict_eq (fun _ kept => ?_) (fun _ => rfl) ?_ rfl
    · exact calls_hidden hidden kept _
    · apply operations_hidden
      · rw [free]
        rfl
      · simp [hidden]
  | @create call claimed _ _ _ missing =>
    refine restrict_eq (fun _ kept => ?_) ?_ (fun _ _ => rfl) rfl
    · exact calls_hidden hidden kept _
    · apply filter_update_hidden
      · rw [missing]
        rfl
      · simp [hidden]
  | @work key entry reading found creator =>
    obtain ⟨phase, same, _⟩ := entry.work_eq reading
    refine restrict_eq (fun _ _ => rfl) ?_ (fun _ _ => rfl) ?_
    · apply filter_update_hidden
      · simp [found, creator, hidden]
      · simp [same, creator, hidden]
    · show (s.invocations ++ _).filter _ = _
      rw [List.filter_append]
      split <;> simp [hidden]
  | @forget executor key owner =>
    obtain ⟨operation, found, own⟩ := (Option.any_eq_true ..).mp owner
    have gone : operation.owner = ref := by simpa using own
    refine restrict_eq (fun _ _ => rfl) (fun _ => rfl) ?_ rfl
    apply operations_hidden
    · simp [found, gone, hidden]
    · rfl

/-! ### Moves of kept calls -/

omit [DecidableEq Executor] [DecidableEq Ref] in
theorem restrict_calls (kept : keep ref = true) : (s.restrict keep).calls ref = s.calls ref := if_pos kept

omit [DecidableEq Executor] [DecidableEq Ref] in
theorem ownsEntry_filter (own : s.ownsEntry keep key = true) :
    (s.ledger key).filter (fun entry => keep entry.creator) = s.ledger key := by
  unfold ownsEntry at own
  cases found : s.ledger key with
  | none => rfl
  | some entry =>
    rw [found] at own
    exact Option.filter_some_pos own

omit [DecidableEq Executor] [DecidableEq Ref] in
theorem ownsEntry_of_kept (own : ∃ entry, s.ledger key = some entry ∧ keep entry.creator = true) :
    s.ownsEntry keep key = true := by
  obtain ⟨entry, found, kept⟩ := own
  simp [ownsEntry, found, kept]

omit [DecidableEq Executor] [DecidableEq Ref] in
theorem restrict_get (own : s.ownsEntry keep key = true) (fingerprint : Option JsString) :
    (s.restrict keep).get key fingerprint = s.get key fingerprint := by
  unfold get
  rw [show (s.restrict keep).ledger key = s.ledger key from ownsEntry_filter own]

theorem filter_update_seen {α β : Type} [DecidableEq α] {f : α → Option β} {a : α} {new : Option β} {p : β → Bool}
    (seen : new.filter p = new) :
    (fun b => (Function.update f a new b).filter p) = Function.update (fun b => (f b).filter p) a new := by
  funext b
  by_cases here : b = a
  · subst here
    rw [Function.update_self, Function.update_self, seen]
  · rw [Function.update_of_ne here, Function.update_of_ne here]

omit [DecidableEq Executor] in
theorem calls_seen (kept : keep ref = true) (call : Call Executor Ref) :
    (fun other => if keep other then Function.update s.calls ref (some call) other else none) =
      Function.update (s.restrict keep).calls ref (some call) := by
  funext other
  by_cases here : other = ref
  · subst here
    rw [Function.update_self, Function.update_self, if_pos kept]
  · rw [Function.update_of_ne here, Function.update_of_ne here]
    rfl

omit [DecidableEq Executor] in
theorem restrict_setCall (kept : keep ref = true) (call : Call Executor Ref) :
    (s.setCall ref call).restrict keep = (s.restrict keep).setCall ref call :=
  ExecutorState.ext (calls_seen kept call) rfl rfl rfl

omit [DecidableEq Ref] in
theorem operations_seen {executor : Executor} {new : Option (Operation Ref)}
    (seen : new.filter (fun operation => keep operation.owner) = new) :
    (fun executor' key' =>
      (Function.update s.operations executor (Function.update (s.operations executor) key new) executor' key').filter
        fun operation => keep operation.owner) =
      Function.update (s.restrict keep).operations executor
        (Function.update ((s.restrict keep).operations executor) key new) := by
  funext executor'
  by_cases here : executor' = executor
  · subst here
    rw [Function.update_self, Function.update_self]
    exact filter_update_seen seen
  · rw [Function.update_of_ne here, Function.update_of_ne here]
    rfl

variable {call : Call Executor Ref}

omit [DecidableEq Executor] in
theorem restrict_authorize (kept : keep ref = true)
    (own : s.ownsEntry keep call.key = true) (claimed : Bool) :
    (s.authorize ref call claimed).restrict keep = (s.restrict keep).authorize ref call claimed := by
  unfold authorize
  rw [restrict_get own]
  split
  · exact restrict_setCall kept _
  · exact restrict_setCall kept _
  · refine ExecutorState.ext (calls_seen kept _) ?_ rfl rfl
    apply filter_update_seen
    exact Option.filter_some_pos kept

theorem restrict_enter (kept : keep ref = true) (reading : DisclosureReading)
    (own : call.approval = true ∨ s.ownsEntry keep call.key = true ∧
      (s.operations call.executor call.key).all (fun operation => keep operation.owner) = true) :
    (s.enter ref call reading).restrict keep = (s.restrict keep).enter ref call reading := by
  unfold enter
  split
  · exact restrict_setCall kept _
  · rename_i approval
    obtain ⟨entry, operation⟩ := own.resolve_left approval
    have same : (s.restrict keep).operations call.executor call.key = s.operations call.executor call.key := by
      show (s.operations call.executor call.key).filter _ = _
      cases found : s.operations call.executor call.key with
      | none => rfl
      | some old =>
        rw [found] at operation
        exact Option.filter_some_pos operation
    rw [restrict_get entry, same]
    split
    · exact restrict_setCall kept _
    · exact restrict_setCall kept _
    · split
      · split
        · exact restrict_setCall kept _
        · exact restrict_setCall kept _
      · refine ExecutorState.ext (calls_seen kept _) rfl ?_ rfl
        apply operations_seen
        exact Option.filter_some_pos kept

omit [DecidableEq Executor] in
theorem restrict_afterPolicy (kept : keep ref = true) {reading : PolicyReading}
    (own : reading = .allow → s.ownsEntry keep call.key = true) :
    (s.afterPolicy ref call reading).restrict keep = (s.restrict keep).afterPolicy ref call reading := by
  cases reading with
  | allow => exact restrict_authorize kept (own rfl) false
  | externalApprovalRequired coordinated =>
    simp only [afterPolicy]
    split
    · exact restrict_setCall kept _
    · exact restrict_setCall kept _
  | deny | invalid | failed | aborted => exact restrict_setCall kept _

omit [DecidableEq Executor] in
theorem restrict_afterClaim (kept : keep ref = true) {reading : ClaimReading}
    (own : reading = .reuse ∨ reading = .claimed → s.ownsEntry keep call.key = true) :
    (s.afterClaim ref call reading).restrict keep = (s.restrict keep).afterClaim ref call reading := by
  cases reading with
  | reuse =>
    simp only [afterClaim]
    rw [restrict_get (own (.inl rfl))]
    split
    · exact restrict_setCall kept _
    · exact restrict_setCall kept _
    · exact restrict_setCall kept _
  | claimed => exact restrict_authorize kept (own (.inr rfl)) true
  | approvalRequired | cancelled | unavailable | refused | failed | aborted => exact restrict_setCall kept _

omit [DecidableEq Executor] in
theorem restrict_receive (kept : keep ref = true) (reason : WaitReason)
    (own : s.ownsEntry keep call.key = true) :
    (s.receive ref call reason).restrict keep = (s.restrict keep).receive ref call reason := by
  unfold receive
  rw [show (s.restrict keep).ledger call.key = s.ledger call.key from ownsEntry_filter own]
  split
  · exact restrict_setCall kept _
  · cases reason with
    | retained | reusing | executing => exact restrict_setCall kept _
  · rfl

omit [DecidableEq Executor] in
theorem restrict_resume (kept : keep ref = true) (own : s.Kept keep call) :
    (s.resume ref call).restrict keep = (s.restrict keep).resume ref call := by
  unfold resume
  unfold Kept at own
  split
  · rename_i owner joined
    rw [joined] at own
    rw [restrict_calls own]
    split
    · exact restrict_setCall kept _
    · rfl
  · rename_i reason waits
    rw [waits] at own
    exact restrict_receive kept reason (ownsEntry_of_kept own)
  · rfl

omit [DecidableEq Executor] in
theorem restrict_abort (kept : keep ref = true) (call : Call Executor Ref) (timedOut : Bool) :
    (s.abort ref call timedOut).restrict keep = (s.restrict keep).abort ref call timedOut := by
  unfold abort
  split
  · exact restrict_setCall kept _
  · exact restrict_setCall kept _
  · rfl

theorem restrict_forget (kept : keep ref = true) (call : Call Executor Ref) :
    (s.forget ref call).restrict keep = (s.restrict keep).forget ref call := by
  have same : ((s.restrict keep).operations call.executor call.key).any (·.owner = ref) =
      (s.operations call.executor call.key).any (·.owner = ref) := by
    show ((s.operations call.executor call.key).filter _).any _ = _
    cases s.operations call.executor call.key with
    | none => rfl
    | some operation =>
      by_cases here : operation.owner = ref
      · simp [here, kept]
      · by_cases own : keep operation.owner = true
        · simp [own]
        · simp [own, here]
  unfold forget
  rw [same]
  split
  · split
    · exact ExecutorState.ext rfl rfl (operations_seen rfl) rfl
    · rfl
  · rfl

omit [DecidableEq Executor] in
theorem restrict_work (kept : keep ref = true) (call : Call Executor Ref) (reading : ExecutionReading) :
    (s.work ref call reading).restrict keep = (s.restrict keep).work ref call reading := by
  unfold work
  cases found : s.ledger call.key with
  | none =>
    rw [show (s.restrict keep).ledger call.key = none from congrArg (Option.filter _) found]
  | some entry =>
    by_cases creator : entry.creator = ref
    · have own : (s.restrict keep).ledger call.key = some entry :=
        (congrArg (Option.filter _) found).trans (Option.filter_some_pos (creator ▸ kept))
      rw [own]
      simp only [creator, ↓reduceIte]
      obtain ⟨phase, same, _⟩ := entry.work_eq reading
      refine ExecutorState.ext rfl ?_ rfl ?_
      · apply filter_update_seen
        apply Option.filter_some_pos
        rw [same]
        exact creator ▸ kept
      · show (s.invocations ++ _).filter _ = _
        rw [List.filter_append]
        split <;> simp [restrict, kept]
    · simp only [creator, ↓reduceIte]
      split
      · rfl
      · rename_i other own
        have own : (some entry).filter (fun entry => keep entry.creator) = some other := found ▸ own
        obtain rfl : entry = other := by
          have listed := Option.eq_some_of_filter_eq_some own
          exact Option.some.inj listed
        rw [if_neg creator]

theorem restrict_execute (kept : keep ref = true) (executor : Executor) (request : ExecutionRequest)
    (reading : DisclosureReading) (fresh : s.calls ref = none)
    (own : s.findsOwn keep ref (.execute executor request reading) = true) :
    (s.execute ref executor request reading).restrict keep = (s.restrict keep).execute ref executor request reading := by
  unfold execute
  dsimp only
  split
  · exact restrict_setCall kept _
  · rename_i given
    apply restrict_enter kept
    have at_ : (admitted executor request : Call Executor Ref).executor = executor := by
      unfold admitted
      dsimp only
      split
      · rfl
      · split <;> rfl
    simp only [findsOwn, fresh, Option.isSome_none, Bool.false_or, Bool.or_eq_true, given,
      Bool.and_eq_true] at own
    rw [at_]
    exact own

/-- Among the kept calls, a step that finds entries of its own is the same step. -/
theorem restrict_step (kept : keep ref = true) (isolated : s.Isolated keep) {move : Move Executor}
    (own : s.findsOwn keep ref move = true) : (s.step ref move).restrict keep = (s.restrict keep).step ref move := by
  unfold step
  rw [restrict_calls kept]
  cases found : s.calls ref with
  | none =>
    cases move with
    | execute executor request reading => exact restrict_execute kept executor request reading found own
    | decide | claim | abort | resume | forget | work => rfl
  | some call =>
    have mine := isolated ref call kept found
    cases move with
    | execute executor request reading => rfl
    | decide reading =>
      dsimp only
      split
      · rename_i authorizing
        apply restrict_afterPolicy kept
        rintro rfl
        simpa [findsOwn, found, authorizing] using own
      · rfl
    | claim reading =>
      dsimp only
      split
      · rename_i claiming
        apply restrict_afterClaim kept
        rintro (rfl | rfl)
        · simpa [findsOwn, found, claiming] using own
        · simpa [findsOwn, found, claiming] using own
      · rfl
    | abort timedOut => exact restrict_abort kept call timedOut
    | resume => exact restrict_resume kept mine
    | forget => exact restrict_forget kept call
    | work reading => exact restrict_work kept call reading

end

end ExecutorState

/-! ### With the limiter -/

/-- What is done for a call of an executor: a move of it, the abort of its signal, or the end of its registered function
after such an abort. -/
inductive Demand (Executor : Type) where
  | move (move : Move Executor)
  | fire
  | settle

namespace ExecutionPhase

def isStarting : ExecutionPhase → Bool
  | .starting => true
  | _ => false

def isAcquiring : ExecutionPhase → Bool
  | .acquiring => true
  | _ => false

def isOver : ExecutionPhase → Bool
  | .settling .. | .settled _ => true
  | _ => false

def result? : ExecutionPhase → Option ToolResult
  | .settling result _ => some result
  | .settled result => result
  | _ => none

/-- `acquire` after the start was recorded, and `release` when the registered function settles. -/
def lineMove : ExecutionPhase → ExecutionReading → Option LineMove
  | .starting, .started => some .enter
  | .invoking, .returned .. | .invoking, .invalidOutput | .invoking, .threw => some .leave
  | _, _ => none

end ExecutionPhase

namespace ExecutorState
variable {Executor Ref : Type} [DecidableEq Executor] [DecidableEq Ref]

/-- Where the execution stands that the call created. -/
def workPhase (s : ExecutorState Executor Ref) (ref : Ref) : Option ExecutionPhase := do
  let call ← s.calls ref
  let entry ← s.ledger call.key
  if entry.creator = ref then some entry.phase else none

/-- An execution goes on when it has its permit, and only what was aborted is cut off. -/
def lets (s : ExecutorState Executor Ref) (limiter : ConcurrencyLimiter Ref) (ref : Ref) : Move Executor → Bool
  | .work .acquired => (limiter.permit? ref).isSome
  | .work (.aborted _) =>
    if (s.workPhase ref).any ExecutionPhase.isAcquiring then ref ∉ limiter.callers else ref ∈ limiter.aborted
  | .abort _ | .decide (.aborted _) | .claim (.aborted _) => ref ∈ limiter.aborted
  | _ => true

def lineMove (s : ExecutorState Executor Ref) (ref : Ref) : Demand Executor → Option LineMove
  | .fire => some .fire
  | .settle => if (s.workPhase ref).any ExecutionPhase.isOver then some .leave else none
  | .move (.work reading) => (s.workPhase ref).bind (·.lineMove reading)
  | .move _ => none

def moved (s : ExecutorState Executor Ref) (limiter : ConcurrencyLimiter Ref) (ref : Ref) :
    Demand Executor → ExecutorState Executor Ref
  | .move move => if s.lets limiter ref move then s.step ref move else s
  | .fire | .settle => s

def driven (s : ExecutorState Executor Ref) (limiter : ConcurrencyLimiter Ref) (ref : Ref) (demand : Demand Executor) :
    ConcurrencyLimiter Ref :=
  (s.lineMove ref demand).elim limiter (limiter.drive ref)

/-- The call neither looks up what another caller made nor waits for a permit that it would have without the others. -/
def standsAlone (keep : Ref → Bool) (s : ExecutorState Executor Ref) (limiter : ConcurrencyLimiter Ref) (ref : Ref)
    (demand : Demand Executor) : Bool :=
  limiter.line.waitsAnyway keep ref && match demand with
    | .move move => s.findsOwn keep ref move
    | _ => true

variable {keep : Ref → Bool} {s : ExecutorState Executor Ref} {limiter alone : ConcurrencyLimiter Ref} {ref : Ref}
  {demand : Demand Executor}

omit [DecidableEq Executor] in
theorem restrict_workPhase (kept : keep ref = true) : (s.restrict keep).workPhase ref = s.workPhase ref := by
  unfold workPhase
  rw [restrict_calls kept]
  cases s.calls ref with
  | none => rfl
  | some call =>
    show ((s.ledger call.key).filter fun entry => keep entry.creator).bind _ = (s.ledger call.key).bind _
    cases s.ledger call.key with
    | none => rfl
    | some entry =>
      by_cases inside : keep entry.creator = true
      · exact congrArg (Option.bind · _) (Option.filter_some_pos inside)
      · have other : entry.creator ≠ ref := fun creator => inside (creator ▸ kept)
        exact (congrArg (Option.bind · _) (Option.filter_some_neg (by simpa using inside))).trans (if_neg other).symm

omit [DecidableEq Executor] in
theorem driven_orderly (orderly : limiter.Orderly) : (s.driven limiter ref demand).Orderly := by
  unfold driven
  cases s.lineMove ref demand with
  | none => exact orderly
  | some move => exact (orderly.drive ref move).1

theorem moved_change (sound : s.Sound) : Change s ref (s.moved limiter ref demand) := by
  cases demand with
  | move move =>
    dsimp only [moved]
    split
    · exact step_change sound ref move
    · exact .idle
  | fire | settle => exact .idle

/-! ### Demands of other callers -/

omit [DecidableEq Executor] in
theorem driven_hidden (orderly : limiter.Orderly) (hidden : keep ref = false) :
    (s.driven limiter ref demand).line.among keep = limiter.line.among keep := by
  unfold driven
  cases s.lineMove ref demand with
  | none => rfl
  | some move => exact (congrArg (·.among keep) (orderly.drive ref move).2).trans (PermitLine.step_hidden hidden move)

/-! ### Demands of kept callers -/

omit [DecidableEq Executor] in
theorem lets_alone (orderly : limiter.Orderly) (orderly' : alone.Orderly) (same : alone.line = limiter.line.among keep)
    (kept : keep ref = true) (anyway : limiter.line.waitsAnyway keep ref = true) (move : Move Executor) :
    (s.restrict keep).lets alone ref move = s.lets limiter ref move := by
  have permit : (alone.permit? ref).isSome = (limiter.permit? ref).isSome := by
    rw [← orderly'.holds, ← orderly.holds, same]
    exact PermitLine.holds_among kept anyway
  have aborted : ref ∈ alone.aborted ↔ ref ∈ limiter.aborted := by
    rw [show alone.aborted = _ from congrArg PermitLine.aborted same]
    simp [PermitLine.among, kept, ConcurrencyLimiter.line]
  have callers : ref ∈ alone.callers ↔ ref ∈ limiter.callers := by
    rw [show alone.callers = _ from congrArg PermitLine.callers same]
    simp [PermitLine.among, kept, ConcurrencyLimiter.line]
  cases move with
  | work reading => cases reading <;> simp only [lets, permit, aborted, callers, restrict_workPhase kept]
  | decide reading => cases reading <;> simp only [lets, aborted]
  | claim reading => cases reading <;> simp only [lets, aborted]
  | abort => simp only [lets, aborted]
  | execute | resume | forget => rfl

omit [DecidableEq Executor] in
theorem lineMove_alone (kept : keep ref = true) : (s.restrict keep).lineMove ref demand = s.lineMove ref demand := by
  cases demand with
  | move move => cases move <;> simp only [lineMove, restrict_workPhase kept]
  | fire => rfl
  | settle => simp only [lineMove, restrict_workPhase kept]

theorem moved_alone (orderly : limiter.Orderly) (orderly' : alone.Orderly) (same : alone.line = limiter.line.among keep)
    (kept : keep ref = true) (isolated : s.Isolated keep) (stands : s.standsAlone keep limiter ref demand = true) :
    (s.restrict keep).moved alone ref demand = (s.moved limiter ref demand).restrict keep := by
  obtain ⟨anyway, own⟩ := Bool.and_eq_true_iff.mp stands
  cases demand with
  | move move =>
    dsimp only [moved]
    rw [lets_alone orderly orderly' same kept anyway]
    split
    · exact (restrict_step kept isolated own).symm
    · rfl
  | fire | settle => rfl

omit [DecidableEq Executor] in
theorem driven_alone (orderly : limiter.Orderly) (orderly' : alone.Orderly) (same : alone.line = limiter.line.among keep)
    (kept : keep ref = true) (stands : s.standsAlone keep limiter ref demand = true) :
    ((s.restrict keep).driven alone ref demand).line = (s.driven limiter ref demand).line.among keep := by
  obtain ⟨anyway, -⟩ := Bool.and_eq_true_iff.mp stands
  unfold driven
  rw [lineMove_alone kept]
  cases s.lineMove ref demand with
  | none => exact same
  | some move =>
    show (alone.drive ref move).line = (limiter.drive ref move).line.among keep
    rw [(orderly'.drive ref move).2, (orderly.drive ref move).2, same, PermitLine.step_among kept anyway]

end ExecutorState

/-! ### Where results come from -/

section
variable {Executor Ref : Type} {returned : Ref → List ToolResultPart → Option CitationRecordSet → Prop}

/-- An execution results in an error or in what the registered function returned to its creator. -/
def LedgerEntry.Came (returned : Ref → List ToolResultPart → Option CitationRecordSet → Prop) (entry : LedgerEntry Ref) : Prop :=
  ∀ result, entry.phase.result? = some result → (∃ error, result = errorResult entry.toolCallId entry.name error) ∨
    ∃ content citationRecords, returned entry.creator content citationRecords ∧
      result = ⟨entry.toolCallId, entry.name, content, false, citationRecords⟩

theorem LedgerEntry.Came.work {entry : LedgerEntry Ref} (came : entry.Came returned) {reading : ExecutionReading}
    (heard : ∀ content citationRecords, reading = .returned content citationRecords →
      returned entry.creator content citationRecords) : (entry.work reading).Came returned := by
  obtain ⟨fingerprint, creator, toolCallId, name, claimed, phase⟩ := entry
  intro result given
  cases phase <;> cases reading <;> cases claimed <;>
    first
    | exact came result given
    | exact .inl ⟨_, (Option.some.inj given).symm⟩
    | exact .inr ⟨_, _, heard _ _ rfl, (Option.some.inj given).symm⟩
    | cases given

namespace ExecutorState
variable [DecidableEq Executor] [DecidableEq Ref] {s : ExecutorState Executor Ref} {ref : Ref}

def AllCame (returned : Ref → List ToolResultPart → Option CitationRecordSet → Prop) (s : ExecutorState Executor Ref) : Prop :=
  ∀ key entry, s.ledger key = some entry → entry.Came returned

omit [DecidableEq Executor] [DecidableEq Ref] in
theorem AllCame.update (came : s.AllCame returned) (key : Identifier) {new : LedgerEntry Ref} (fresh : new.Came returned)
    (other : Identifier) (entry : LedgerEntry Ref) (found : Function.update s.ledger key (some new) other = some entry) :
    entry.Came returned := by
  by_cases here : other = key
  · rw [here, Function.update_self] at found
    exact Option.some.inj found ▸ fresh
  · rw [Function.update_of_ne here] at found
    exact came other entry found

theorem AllCame.step (came : s.AllCame returned) {move : Move Executor} (heard : ∀ content citationRecords,
    move = .work (.returned content citationRecords) → returned ref content citationRecords) :
    (s.step ref move).AllCame returned := by
  have authorized (call : Call Executor Ref) (claimed : Bool) : (s.authorize ref call claimed).AllCame returned := by
    unfold authorize
    split
    · exact came
    · exact came
    · refine came.update call.key fun result given => ?_
      cases given
  unfold ExecutorState.step
  cases s.calls ref with
  | none =>
    cases move with
    | execute =>
      dsimp only [execute, enter]
      repeat' split
      all_goals exact came
    | decide | claim | abort | resume | forget | work => exact came
  | some call =>
    cases move with
    | execute => exact came
    | decide reading =>
      dsimp only
      split
      · cases reading with
        | allow => exact authorized call false
        | externalApprovalRequired =>
          dsimp only [afterPolicy]
          split <;> exact came
        | deny | invalid | failed | aborted => exact came
      · exact came
    | claim reading =>
      dsimp only
      split
      · cases reading with
        | claimed => exact authorized call true
        | reuse =>
          dsimp only [afterClaim]
          split <;> exact came
        | approvalRequired | cancelled | unavailable | refused | failed | aborted => exact came
      · exact came
    | abort =>
      dsimp only [abort]
      split <;> exact came
    | resume =>
      dsimp only [resume, receive]
      repeat' split
      all_goals exact came
    | forget =>
      dsimp only [forget]
      repeat' split
      all_goals exact came
    | work reading =>
      dsimp only [work]
      split
      · exact came
      · rename_i entry found
        split
        · rename_i creator
          refine came.update call.key ((came _ entry found).work fun content citationRecords same => ?_)
          rw [creator]
          exact heard content citationRecords (congrArg Move.work same)
        · exact came

end ExecutorState

end

end Handrail.Tools

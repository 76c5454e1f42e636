import Handrail.Tools.LoopBudgets
import Handrail.Tools.LoopResults
import Handrail.Tools.ExecutorViews

/-!
# Tool loops over one ledger

Several runs of `runToolLoop`, each with its own conversation, give their calls to executors that
share a ledger, and runs of one executor share its limiter. A run gives no `executionKey`, so the
executor keeps a call under its `tool_call_id`, which only the provider made unique.
-/

namespace Handrail.Tools
open Js Conversation Handrail.Runtime

/-! ### One run -/

/-- The request that `runToolLoop` makes for a call. -/
def loopRequest (call : ToolCallRecord) (approval : Bool) : Option ExecutionRequest := do
  let name ← call.name
  let arguments_ ← call.arguments
  some ⟨⟨call.toolCallId.text, name.text, some (.obj arguments_.fields)⟩, none, approval⟩

/-- What a run sees of the executor: the outcomes of its calls, by number, and whether the execution of one of them is
about to start. -/
structure ExecutorView where
  outcome : Nat → Option ExecutionOutcome
  starting : Nat → Bool

inductive RunAction (Executor : Type) where
  | start (turn : TurnResult) (now : Int)
  | outside (event : ConversationEvent)
  /-- `approval` is what `resolveApprovalResume` gives. -/
  | advance (reading : Reading) (approval : Bool) (disclosure : DisclosureReading)
  | call (number : Nat) (demand : Demand Executor)

def handedNumber (handed : List ToolCallRecord) (call : ToolCallRecord) : Nat :=
  handed.length - 1 - handed.reverse.findIdx (·.toolCallId == call.toolCallId)

def answered (system : LoopSystem) (view : ExecutorView) (pool : Pool) (reading : Reading) : Option Reading :=
  match reading.move with
  | .take => some reading
  | .start index => do
    let call ← pool.running[index]?
    if view.starting (handedNumber system.handed call) then some reading else none
  | .finish index _ => do
    let call ← pool.running[index]?
    let outcome ← view.outcome (handedNumber system.handed call)
    some { reading with move := .finish index outcome }

section
variable {Executor : Type} (options : LoopOptions) (executor : Executor)

/-- `onExecutionStarted` -/
def startMove (s : ConversationState) (loop : ToolLoop) (call : ToolCallRecord) (reading : Reading) : Demand Executor :=
  let recorded := call.startedAt.isSome || (recordToolLoopEvents options.conversationId s reading.stamp
    [.toolCallStarted loop.turn.turnId call.toolCallId]).isSome
  .move (.work (if recorded then .started else .startFailed))

def advanceRun (system : LoopSystem) (view : ExecutorView) (reading : Reading) (approval : Bool)
    (disclosure : DisclosureReading) : LoopSystem × Option (Nat × Demand Executor) :=
  match system.loop with
  | none => (system, none)
  | some loop =>
    let proceed (reading : Reading) (demand : Option (Nat × Demand Executor)) :=
      let (state, next, handed) := advance options system.state loop reading
      let handing := do
        let request ← loopRequest (← handed) approval
        some (system.handed.length, Demand.move (.execute executor request disclosure))
      (LoopSystem.mk state (some next) (system.handed ++ handed.toList), handing.or demand)
    match loop.phase with
    | .executing pool =>
      match answered system view pool reading with
      | none => (system, none)
      | some reading =>
        proceed reading (match reading.move with
          | .start index => pool.running[index]?.map fun call =>
            (handedNumber system.handed call, startMove options system.state loop call reading)
          | _ => none)
    | _ => proceed reading none

def runStep (system : LoopSystem) (view : ExecutorView) : RunAction Executor → LoopSystem × Option (Nat × Demand Executor)
  | .start turn now =>
    if (system.state.findTurn turn.turnId).isNone then (system, none)
    else ({ system with loop := some (startLoop system.state turn now) }, none)
  | .outside event => ({ system with state := reduceConversationEvent system.state event }, none)
  | .advance reading approval disclosure => advanceRun options executor system view reading approval disclosure
  | .call number demand =>
    match demand with
    -- These belong to the steps of the run.
    | .move (.execute ..) | .move (.work .started) | .move (.work .startFailed) => (system, none)
    | _ => (system, some (number, demand))

end

section
variable {Executor : Type} {options : LoopOptions} {executor : Executor} {system : LoopSystem} {view : ExecutorView}
  {P Q : RecordedResult → Prop}

structure LoopSystem.Recorded (P : RecordedResult → Prop) (system : LoopSystem) : Prop where
  state : AllRecorded P system.state.toolCalls
  phase : ∀ loop, system.loop = some loop → loop.phase.Recorded P

theorem LoopSystem.Recorded.mono (recorded : system.Recorded P) (more : ∀ result, P result → Q result) : system.Recorded Q :=
  ⟨fun call member result given => more result (recorded.state call member result given),
    fun loop found => (recorded.phase loop found).mono more⟩

theorem answered_finish {pool : Pool} {reading given : Reading} {index : Nat} {result : ToolResult}
    (given_ : answered system view pool reading = some given) (finishes : given.move = .finish index (.completed result)) :
    ∃ number, view.outcome number = some (.completed result) := by
  unfold answered at given_
  split at given_
  · rename_i takes
    cases given_
    rw [takes] at finishes
    cases finishes
  · rename_i starts
    simp only [Option.bind_eq_bind, Option.bind_eq_some_iff] at given_
    obtain ⟨call, -, begun⟩ := given_
    split at begun
    · cases begun
      rw [starts] at finishes
      cases finishes
    · cases begun
  · simp only [Option.bind_eq_bind, Option.bind_eq_some_iff] at given_
    obtain ⟨call, -, outcome, heard, same⟩ := given_
    cases same
    cases finishes
    exact ⟨_, heard⟩

theorem advanceRun_recorded (recorded : system.Recorded P)
    (heard : ∀ number result, view.outcome number = some (.completed result) →
    P result.recorded) (reading : Reading) (approval : Bool) (disclosure : DisclosureReading) :
    (advanceRun options executor system view reading approval disclosure).1.Recorded P := by
  unfold advanceRun
  split
  · exact recorded
  · rename_i loop running
    have holds : HoldsOfResults P system.state loop.phase := ⟨recorded.state, recorded.phase loop running⟩
    dsimp only
    split
    · rename_i pool here
      split
      · exact recorded
      · rename_i given found
        have next : HoldsOfResults P (advance options system.state loop given).1
            (advance options system.state loop given).2.1.phase := by
          refine advance_recorded holds fun pool' index result same finishes => ?_
          rw [here] at same
          cases same
          obtain ⟨number, outcome⟩ := answered_finish found finishes
          exact heard number result outcome
        exact ⟨next.state, fun _ same => Option.some.inj same ▸ next.phase⟩
    · rename_i other
      have next : HoldsOfResults P (advance options system.state loop reading).1
          (advance options system.state loop reading).2.1.phase :=
        advance_recorded holds fun pool index result same _ => (other pool same).elim
      exact ⟨next.state, fun _ same => Option.some.inj same ▸ next.phase⟩

theorem runStep_recorded (recorded : system.Recorded P) (heard : ∀ number result, view.outcome number = some (.completed result) →
    P result.recorded) {action : RunAction Executor}
    (given : ∀ event, action = .outside event → ∀ result, resultOf event.payload = some result → P result) :
    (runStep options executor system view action).1.Recorded P := by
  cases action with
  | start turn now =>
    dsimp only [runStep]
    split
    · exact recorded
    · refine ⟨recorded.state, fun loop same => ?_⟩
      rw [← Option.some.inj same]
      trivial
  | outside event => exact ⟨recorded_reduce recorded.state (given event rfl), recorded.phase⟩
  | advance reading approval disclosure => exact advanceRun_recorded recorded heard reading approval disclosure
  | call number demand =>
    dsimp only [runStep]
    split <;> exact recorded

theorem startMove_returned {s : ConversationState} {loop : ToolLoop} {call : ToolCallRecord} {reading : Reading}
    {content : List ToolResultPart} {citationRecords : Option CitationRecordSet} :
    startMove options s loop call reading ≠ (.move (.work (.returned content citationRecords)) : Demand Executor) := by
  unfold startMove
  dsimp only
  split <;> simp

/-- Only the demands of a run say what its registered functions return. -/
theorem runStep_returned {action : RunAction Executor} {number : Nat} {content : List ToolResultPart}
    {citationRecords : Option CitationRecordSet}
    (asked : (runStep options executor system view action).2 = some (number, .move (.work (.returned content citationRecords)))) :
    action = .call number (.move (.work (.returned content citationRecords))) := by
  cases action with
  | start turn now =>
    dsimp only [runStep] at asked
    split at asked <;> cases asked
  | outside event => cases asked
  | advance reading approval disclosure =>
    dsimp only [runStep] at asked
    unfold advanceRun at asked
    split at asked
    · cases asked
    · dsimp only at asked
      split at asked
      · split at asked
        · cases asked
        · rcases Option.or_eq_some_iff.mp asked with handed | ⟨-, started⟩
          · simp [Option.bind_eq_some_iff] at handed
          · split at started
            · obtain ⟨call, -, same⟩ := Option.map_eq_some_iff.mp started
              exact (startMove_returned (congrArg Prod.snd same)).elim
            · cases started
      · rcases Option.or_eq_some_iff.mp asked with handed | ⟨-, started⟩
        · simp [Option.bind_eq_some_iff] at handed
        · cases started
  | call other demand =>
    dsimp only [runStep] at asked
    split at asked
    · cases asked
    · cases asked
    · cases asked
    · cases asked
      rfl

end

/-! ### All runs -/

structure SharedState (Executor Run : Type) where
  loops : Run → LoopSystem
  executor : ExecutorState Executor (Run × Nat)
  limiters : Executor → ConcurrencyLimiter (Run × Nat)

section
variable {Executor Run : Type} [DecidableEq Executor] [DecidableEq Run]

def ExecutorState.view (s : ExecutorState Executor (Run × Nat)) (run : Run) : ExecutorView where
  outcome number :=
    match (s.calls (run, number)).map Call.phase with
    | some (.finished (.returned outcome) _) => some outcome
    | _ => none
  starting number := (s.workPhase (run, number)).any ExecutionPhase.isStarting

def ofRun (run : Run) (ref : Run × Nat) : Bool := decide (ref.1 = run)

namespace SharedState
variable (options : Run → LoopOptions) (executors : Run → Executor)

def nextOf (s : SharedState Executor Run) (run : Run) (action : RunAction Executor) :
    LoopSystem × Option (Nat × Demand Executor) :=
  runStep (options run) (executors run) (s.loops run) (s.executor.view run) action

def meet (s : SharedState Executor Run) (executor : Executor) (ref : Run × Nat) (demand : Demand Executor) :
    SharedState Executor Run where
  loops := s.loops
  executor := s.executor.moved (s.limiters executor) ref demand
  limiters := Function.update s.limiters executor (s.executor.driven (s.limiters executor) ref demand)

def step (s : SharedState Executor Run) (run : Run) (action : RunAction Executor) : SharedState Executor Run :=
  let next := s.nextOf options executors run action
  let advanced := { s with loops := Function.update s.loops run next.1 }
  next.2.elim advanced fun demand => advanced.meet (executors run) (run, demand.1) demand.2

def run (s : SharedState Executor Run) (actions : List (Run × RunAction Executor)) : SharedState Executor Run :=
  actions.foldl (fun s action => s.step options executors action.1 action.2) s

def stepStandsAlone (s : SharedState Executor Run) (run : Run) (action : RunAction Executor) : Bool :=
  (s.nextOf options executors run action).2.all fun demand =>
    s.executor.standsAlone (ofRun run) (s.limiters (executors run)) (run, demand.1) demand.2

def standsAlone (mine : Run) : SharedState Executor Run → List (Run × RunAction Executor) → Bool
  | _, [] => true
  | s, (other, action) :: rest =>
    (other ≠ mine || s.stepStandsAlone options executors mine action) &&
      standsAlone mine (s.step options executors other action) rest

variable {options : Run → LoopOptions} {executors : Run → Executor} {s t : SharedState Executor Run}

/-! ### A run that stands alone -/

theorem ofRun_iff {run : Run} {ref : Run × Nat} : ofRun run ref = true ↔ ref.1 = run := decide_eq_true_iff

theorem ofRun_self (run : Run) (number : Nat) : ofRun run (run, number) = true := ofRun_iff.mpr rfl

omit [DecidableEq Executor] in
theorem view_restrict (e : ExecutorState Executor (Run × Nat)) (run : Run) :
    (e.restrict (ofRun run)).view run = e.view run := by
  refine congrArg₂ ExecutorView.mk (funext fun number => ?_) (funext fun number => ?_)
  · rw [ExecutorState.restrict_calls (ofRun_self run number)]
  · rw [ExecutorState.restrict_workPhase (ofRun_self run number)]

structure Sound (s : SharedState Executor Run) : Prop where
  executor : s.executor.Sound
  limiters : ∀ executor, (s.limiters executor).Orderly

theorem Sound.meet (sound : s.Sound) (executor : Executor) (ref : Run × Nat) (demand : Demand Executor) :
    (s.meet executor ref demand).Sound := by
  refine ⟨sound.executor.change (ExecutorState.moved_change sound.executor), fun other => ?_⟩
  show (Function.update s.limiters executor _ other).Orderly
  by_cases same : other = executor
  · subst same
    rw [Function.update_self]
    exact ExecutorState.driven_orderly (sound.limiters other)
  · rw [Function.update_of_ne same]
    exact sound.limiters other

theorem Sound.step (sound : s.Sound) (run : Run) (action : RunAction Executor) : (s.step options executors run action).Sound := by
  have advanced : ({ s with loops := Function.update s.loops run (s.nextOf options executors run action).1 } :
      SharedState Executor Run).Sound := ⟨sound.executor, sound.limiters⟩
  unfold SharedState.step
  dsimp only
  cases (s.nextOf options executors run action).2 with
  | none => exact advanced
  | some demand => exact advanced.meet (executors run) (run, demand.1) demand.2

structure Alone (executors : Run → Executor) (mine : Run) (s t : SharedState Executor Run) : Prop where
  loops : t.loops mine = s.loops mine
  executor : t.executor = s.executor.restrict (ofRun mine)
  line : (t.limiters (executors mine)).line = (s.limiters (executors mine)).line.among (ofRun mine)

omit [DecidableEq Executor] in
theorem Alone.nextOf {mine : Run} (alone : Alone executors mine s t) (action : RunAction Executor) :
    t.nextOf options executors mine action = s.nextOf options executors mine action := by
  simp only [SharedState.nextOf, alone.loops, alone.executor, view_restrict]

theorem Alone.other {mine other : Run} (alone : Alone executors mine s t) (sound : s.Sound) (different : other ≠ mine)
    (action : RunAction Executor) : Alone executors mine (s.step options executors other action) t := by
  have loops : Function.update s.loops other (s.nextOf options executors other action).1 mine = s.loops mine :=
    Function.update_of_ne different.symm ..
  unfold SharedState.step
  dsimp only
  cases (s.nextOf options executors other action).2 with
  | none => exact ⟨alone.loops.trans loops.symm, alone.executor, alone.line⟩
  | some demand =>
    have hidden : ofRun mine (other, demand.1) = false := decide_eq_false different
    refine ⟨alone.loops.trans loops.symm, ?_, ?_⟩
    · rw [alone.executor]
      exact ((ExecutorState.moved_change sound.executor).hidden hidden).symm
    · rw [alone.line]
      show _ = PermitLine.among (Function.update s.limiters (executors other) _ (executors mine)).line _
      by_cases same : executors mine = executors other
      · rw [same, Function.update_self]
        exact (ExecutorState.driven_hidden (sound.limiters _) hidden).symm
      · rw [Function.update_of_ne same]

theorem Alone.own {mine : Run} (alone : Alone executors mine s t) (sound : s.Sound) (sound' : t.Sound)
    {action : RunAction Executor} (stands : s.stepStandsAlone options executors mine action = true) :
    Alone executors mine (s.step options executors mine action) (t.step options executors mine action) := by
  have next : t.nextOf options executors mine action = s.nextOf options executors mine action := alone.nextOf action
  have loops : Function.update t.loops mine (s.nextOf options executors mine action).1 mine =
      Function.update s.loops mine (s.nextOf options executors mine action).1 mine := by
    rw [Function.update_self, Function.update_self]
  unfold SharedState.step
  rw [next]
  unfold stepStandsAlone at stands
  dsimp only
  cases moved : (s.nextOf options executors mine action).2 with
  | none => exact ⟨loops, alone.executor, alone.line⟩
  | some demand =>
    rw [moved] at stands
    have isolated := ExecutorState.isolated_of_sound (alone.executor ▸ sound'.executor)
    have kept : ofRun mine (mine, demand.1) = true := ofRun_self mine demand.1
    refine ⟨loops, ?_, ?_⟩
    · show t.executor.moved _ _ _ = _
      rw [alone.executor]
      exact ExecutorState.moved_alone (sound.limiters _) (sound'.limiters _) alone.line kept isolated stands
    · show (Function.update t.limiters _ _ _).line = PermitLine.among (Function.update s.limiters _ _ _).line _
      rw [Function.update_self, Function.update_self]
      show (t.executor.driven _ _ _).line = _
      rw [alone.executor]
      exact ExecutorState.driven_alone (sound.limiters _) (sound'.limiters _) alone.line kept stands

theorem Sound.run (sound : s.Sound) (actions : List (Run × RunAction Executor)) : (s.run options executors actions).Sound := by
  induction actions generalizing s with
  | nil => exact sound
  | cons action rest ih => exact ih (sound.step action.1 action.2)

/-- A run goes on as it does without the others. -/
theorem Alone.run {mine : Run} (alone : Alone executors mine s t) (sound : s.Sound) (sound' : t.Sound)
    {actions : List (Run × RunAction Executor)} (stands : standsAlone options executors mine s actions = true) :
    Alone executors mine (s.run options executors actions)
      (t.run options executors (actions.filter fun action => decide (action.1 = mine))) := by
  induction actions generalizing s t with
  | nil => exact alone
  | cons action rest ih =>
    obtain ⟨other, action⟩ := action
    obtain ⟨first, stands⟩ := Bool.and_eq_true_iff.mp stands
    have later : (s.step options executors other action).Sound := sound.step other action
    by_cases same : other = mine
    · subst same
      have first : s.stepStandsAlone options executors other action = true := by simpa using first
      rw [List.filter_cons_of_pos (by simp)]
      exact ih (alone.own sound sound' first) later (sound'.step other action) stands
    · rw [List.filter_cons_of_neg (by simpa using same)]
      exact ih (alone.other sound same action) later sound' stands

/-! ### What a run records -/

theorem step_loops (s : SharedState Executor Run) (run : Run) (action : RunAction Executor) :
    (s.step options executors run action).loops = Function.update s.loops run (s.nextOf options executors run action).1 := by
  unfold SharedState.step
  dsimp only
  cases (s.nextOf options executors run action).2 <;> rfl

/-- The result of a call of the run. -/
def Made (s : SharedState Executor Run) (mine : Run) (result : RecordedResult) : Prop :=
  ∃ number call completed fromLedger, s.executor.calls (mine, number) = some call ∧
    call.phase = .finished (.returned (.completed completed)) fromLedger ∧ completed.recorded = result

variable {mine : Run} {result : RecordedResult}

omit [DecidableEq Executor] in
theorem made_of_view {number : Nat} {completed : ToolResult}
    (heard : (s.executor.view mine).outcome number = some (.completed completed)) : s.Made mine completed.recorded := by
  unfold ExecutorState.view at heard
  dsimp only at heard
  split at heard
  · rename_i outcome fromLedger finished
    obtain ⟨call, found, phase⟩ := Option.map_eq_some_iff.mp finished
    cases heard
    exact ⟨number, call, completed, fromLedger, found, phase, rfl⟩
  · cases heard

theorem Made.step (made : s.Made mine result) (sound : s.Sound) (run : Run) (action : RunAction Executor) :
    (s.step options executors run action).Made mine result := by
  obtain ⟨number, call, completed, fromLedger, found, finished, same⟩ := made
  refine ⟨number, call, completed, fromLedger, ?_, finished, same⟩
  unfold SharedState.step
  dsimp only
  cases (s.nextOf options executors run action).2 with
  | none => exact found
  | some demand =>
    obtain ⟨asked, demand⟩ := demand
    cases demand with
    | move move =>
      show (ite _ _ _ : ExecutorState _ _).calls _ = _
      split
      · exact ExecutorState.step_finished sound.executor found finished _ move
      · exact found
    | fire | settle => exact found

theorem recorded_run {given : RecordedResult → Prop} (sound : s.Sound)
    (recorded : (s.loops mine).Recorded fun result => given result ∨ s.Made mine result)
    {actions : List (Run × RunAction Executor)} (outside : ∀ event, (mine, .outside event) ∈ actions →
      ∀ result, resultOf event.payload = some result → given result) :
    ((s.run options executors actions).loops mine).Recorded fun result =>
      given result ∨ (s.run options executors actions).Made mine result := by
  induction actions generalizing s with
  | nil => exact recorded
  | cons action rest ih =>
    obtain ⟨other, action⟩ := action
    have kept (result : RecordedResult) (known : given result ∨ s.Made mine result) :
        given result ∨ (s.step options executors other action).Made mine result :=
          known.imp_right fun made => made.step sound other action
    refine ih (sound.step other action) ?_ fun event inside => outside event (List.mem_cons_of_mem _ inside)
    rw [step_loops]
    by_cases same : other = mine
    · subst same
      rw [Function.update_self]
      refine LoopSystem.Recorded.mono (runStep_recorded recorded (fun _ _ heard => .inr (made_of_view heard)) ?_) kept
      rintro event rfl result said
      exact .inl (outside event List.mem_cons_self result said)
    · rw [Function.update_of_ne (Ne.symm same)]
      exact recorded.mono kept

theorem came_run {returned : Run × Nat → List ToolResultPart → Option CitationRecordSet → Prop}
    (came : s.executor.AllCame returned) {actions : List (Run × RunAction Executor)}
    (heard : ∀ run number content citationRecords,
      (run, .call number (.move (.work (.returned content citationRecords)))) ∈ actions →
      returned (run, number) content citationRecords) : (s.run options executors actions).executor.AllCame returned := by
  induction actions generalizing s with
  | nil => exact came
  | cons action rest ih =>
    obtain ⟨run, action⟩ := action
    refine ih ?_ fun run number content citationRecords inside => heard _ _ _ _ (List.mem_cons_of_mem _ inside)
    unfold SharedState.step
    dsimp only
    cases asked : (s.nextOf options executors run action).2 with
    | none => exact came
    | some demand =>
      obtain ⟨number, demand⟩ := demand
      cases demand with
      | move move =>
        show (ite _ _ _ : ExecutorState _ _).AllCame _
        split
        · refine came.step fun content citationRecords same => ?_
          rw [same] at asked
          exact heard run number content citationRecords (runStep_returned asked ▸ List.mem_cons_self)
        · exact came
      | fire | settle => exact came

/-! ### Runs of their own -/

def begin (maximum : Executor → Nat) (logs : Run → ConversationState) : SharedState Executor Run :=
  ⟨fun run => ⟨logs run, none, []⟩, .new, fun executor => .start (maximum executor)⟩

/-- An error that the call made itself, or the result of an execution that a call of the run created and alone invoked: an
error or what the registered function returned to it. -/
def OwnResult (s : SharedState Executor Run) (actions : List (Run × RunAction Executor)) (mine : Run)
    (call : Call Executor (Run × Nat)) (completed : ToolResult) : Prop :=
  ExecutorState.OwnError call completed ∨ ∃ entry maker, s.executor.Retains call entry ∧
    entry.phase = .settled (some completed) ∧ entry.creator = (mine, maker) ∧
    (∀ invocation ∈ s.executor.invocations, invocation.1 = call.key → invocation.2 = (mine, maker)) ∧
    ((∃ error, completed = errorResult entry.toolCallId entry.name error) ∨ ∃ content citationRecords,
      (mine, .call maker (.move (.work (.returned content citationRecords)))) ∈ actions ∧
      completed = ⟨entry.toolCallId, entry.name, content, false, citationRecords⟩)

/-- A run does the same without the others, and the results in its log were there, are those of another writer or are
results of its own calls. -/
structure KeepsToItself (options : Run → LoopOptions) (executors : Run → Executor) (maximum : Executor → Nat)
    (logs : Run → ConversationState) (actions : List (Run × RunAction Executor)) (mine : Run) : Prop where
  alone : ((begin maximum logs).run options executors actions).loops mine =
    ((begin maximum logs).run options executors (actions.filter fun action => decide (action.1 = mine))).loops mine
  recorded : ∀ call ∈ (((begin maximum logs).run options executors actions).loops mine).state.toolCalls,
    ∀ result, recordedResult call = some result →
      (∃ before ∈ (logs mine).toolCalls, recordedResult before = some result) ∨
      (∃ event, (mine, .outside event) ∈ actions ∧ resultOf event.payload = some result) ∨
      ∃ number made completed, ((begin maximum logs).run options executors actions).executor.calls (mine, number) = some made ∧
        ((begin maximum logs).run options executors actions).OwnResult actions mine made completed ∧
        completed.recorded = result

end SharedState

end

/-! ### Two conversations with one tool call identifier -/

namespace SharedState

def sampleConversation (run : Bool) : Identifier := if run then sampleId "other" else sampleConversationId

def sampleOptions (run : Bool) : LoopOptions := { sampleLoopOptions with conversationId := sampleConversation run }

def sampleLog (callIds : Bool → Identifier) (run : Bool) : ConversationState :=
  let draft (payload : ConversationEventPayload) : EventDraft := ⟨⟨.system, none⟩, .runtime, none, none, payload⟩
  foldEvents (createInitialConversationState (some (sampleConversation run)))
    (draftEvents (sampleConversation run) sampleTime 1 [sampleId "shared-1", sampleId "shared-2", sampleId "shared-3"]
      [draft (.turnStarted (sampleId "turn") [sampleId "prompt"] none),
        draft (.toolCallRequested (sampleId "turn") (callIds run) (sampleId "lookup") ⟨[]⟩),
        draft (.turnCompleted (sampleId "turn") .toolCalls [])])

def sampleAdvance (eventIds : List Identifier) (move : WorkerMove) : RunAction Unit :=
  .advance (sampleReading eventIds move) false .disclosed

def sampleMove (move : Move Unit) : RunAction Unit := .call 0 (.move move)

def sampleActions (run : Bool) (text : JsString) : List (Bool × RunAction Unit) :=
  [.start (sampleResult (sampleId "turn")) 1704067200000, sampleAdvance [] .take, sampleAdvance [sampleId "shared-4"] .take,
    sampleAdvance [] .take, sampleAdvance [] .take, sampleMove (.decide .allow), sampleAdvance [sampleId "shared-5"] (.start 0),
    sampleMove (.work .acquired), sampleMove (.work (.returned [.text text] none)), sampleMove .resume,
    sampleAdvance [] (.finish 0 .externalApprovalRequired), sampleAdvance [] .take, sampleAdvance [] .take,
    sampleAdvance [sampleId "shared-6"] .take].map (run, ·)

def recordedTexts (system : LoopSystem) : List JsString :=
  (system.state.toolCalls.filterMap ToolCallRecord.result).flatMap fun result => result.content.filterMap fun
    | .text text => some text
    | .json _ => none

end SharedState

end Handrail.Tools

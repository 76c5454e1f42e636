import Handrail.Tools.LoopLedger
import Mathlib.Data.Finset.Dedup
import Mathlib.Data.Finset.Card

/-!
# The budgets of the tool loop

The discoveries of a turn are recorded before its budgets are checked. As long as no run is cut off
between the discoveries of a turn beyond the iteration budget and the exhaustion of that budget,
every run finds its budgets in the log.
-/

namespace Handrail.Tools
open Js Conversation Handrail.Runtime

/-! ### What is counted -/

instance (s : ConversationState) (input : List Identifier) (turnId : Identifier) : Decidable (HasInput s input turnId) :=
  inferInstanceAs (Decidable (∃ key ∈ turnKeys s, key.1 = turnId ∧ key.2.1 = input))

def handedTurns (system : LoopSystem) (input : List Identifier) : Finset Identifier :=
  ((system.handed.map ToolCallRecord.turnId).filter fun turnId => HasInput system.state input turnId).toFinset

def handedCalls (system : LoopSystem) (input : List Identifier) : Finset Identifier :=
  ((system.handed.filter fun call => HasInput system.state input call.turnId).map ToolCallRecord.toolCallId).toFinset

def discoveredKeys (s : ConversationState) (input : List Identifier) : List (Identifier × Identifier × Bool) :=
  (callKeys s).filter fun key => decide (HasInput s input key.2.1) && key.2.2

def discoveredTurns (s : ConversationState) (input : List Identifier) : Finset Identifier :=
  ((discoveredKeys s input).map (·.2.1)).toFinset

def discoveredCalls (s : ConversationState) (input : List Identifier) : Finset Identifier :=
  ((discoveredKeys s input).map Prod.fst).toFinset

def unexhausted (s : ConversationState) (input : List Identifier) : Finset Identifier :=
  (discoveredTurns s input).filter (· ∉ exhaustedTurns s)

section
variable (options : LoopOptions)

def overBudget (loop : ToolLoop) : Bool :=
  match loop.phase with
  | .counting calls => decide (0 < (undiscovered calls).length ∧ options.limits.maxIterations.value ≤ loop.iterations)
  | .exhausting .iterations _ => true
  | _ => false

/-- The action cuts off a run, or fails to record its exhaustion, while it is over its iteration budget. -/
def cutsOff (system : LoopSystem) : LoopAction → Bool
  | .start turn _ => (system.state.findTurn turn.turnId).isSome && system.loop.any (overBudget options)
  | .advance reading => system.loop.any fun loop =>
    match loop.phase with
    | .exhausting .iterations limit =>
      match (exhaust options system.state loop reading .iterations limit).2 with
      | .returned .rejected => true
      | _ => false
    | _ => false
  | .outside _ => false

def neverCutsOff : LoopSystem → List LoopAction → Bool
  | _, [] => true
  | system, action :: rest => !cutsOff options system action && neverCutsOff (step options system action) rest

end

/-- A log in which continuations have the input of the turn that they continue, and at most as many turns of the
input as the budget allows have discoveries without an exhaustion. -/
def startsWithin (options : LoopOptions) (input : List Identifier) (s : ConversationState) : Prop :=
  (∀ key ∈ turnKeys s, ∀ preceding ∈ key.2.2, HasInput s key.2.1 preceding) ∧
    (unexhausted s input).card ≤ options.limits.maxIterations.value

/-! ### Membership -/

section
variable {s t : ConversationState} {input : List Identifier} {turnId toolCallId : Identifier}

theorem mem_discoveredTurns : turnId ∈ discoveredTurns s input ↔
    HasInput s input turnId ∧ ∃ toolCallId, Discovered s toolCallId turnId := by
  simp only [discoveredTurns, discoveredKeys, List.mem_toFinset, List.mem_map, List.mem_filter, Bool.and_eq_true,
    decide_eq_true_eq, Discovered]
  constructor
  · rintro ⟨⟨id, turn, found⟩, ⟨inside, has, rfl⟩, rfl⟩
    exact ⟨has, id, inside⟩
  · rintro ⟨has, id, inside⟩
    exact ⟨_, ⟨inside, has, rfl⟩, rfl⟩

theorem mem_discoveredCalls : toolCallId ∈ discoveredCalls s input ↔
    ∃ turnId, HasInput s input turnId ∧ Discovered s toolCallId turnId := by
  simp only [discoveredCalls, discoveredKeys, List.mem_toFinset, List.mem_map, List.mem_filter, Bool.and_eq_true,
    decide_eq_true_eq, Discovered]
  constructor
  · rintro ⟨⟨id, turn, found⟩, ⟨inside, has, rfl⟩, rfl⟩
    exact ⟨turn, has, inside⟩
  · rintro ⟨turn, has, inside⟩
    exact ⟨_, ⟨inside, has, rfl⟩, rfl⟩

theorem mem_unexhausted : turnId ∈ unexhausted s input ↔ turnId ∈ discoveredTurns s input ∧ turnId ∉ exhaustedTurns s :=
  Finset.mem_filter

theorem mem_handedTurns {system : LoopSystem} : turnId ∈ handedTurns system input ↔
    HasInput system.state input turnId ∧ ∃ call ∈ system.handed, call.turnId = turnId := by
  simp only [handedTurns, List.mem_toFinset, List.mem_filter, List.mem_map, decide_eq_true_eq]
  tauto

theorem mem_handedCalls {system : LoopSystem} : toolCallId ∈ handedCalls system input ↔
    ∃ call ∈ system.handed, HasInput system.state input call.turnId ∧ call.toolCallId = toolCallId := by
  simp only [handedCalls, List.mem_toFinset, List.mem_map, List.mem_filter, decide_eq_true_eq, and_assoc]

theorem Discovered.used (discovered : Discovered s toolCallId turnId) : Used s turnId := .inr ⟨_, discovered, rfl⟩

theorem Sound.input_unique (sound : Sound s) {other : List Identifier} (first : HasInput s input turnId)
    (second : HasInput s other turnId) : input = other := by
  obtain ⟨key, inside, rfl, rfl⟩ := first
  obtain ⟨key', inside', same, rfl⟩ := second
  rw [List.inj_on_of_nodup_map sound.turnIds inside inside' same.symm]

/-! ### The counts of states -/

theorem Keeps.discoveredTurns (keeps : Keeps s t) (given : input ≠ []) :
    discoveredTurns t input = discoveredTurns s input := by
  ext turnId
  rw [mem_discoveredTurns, mem_discoveredTurns]
  simp only [keeps.discovered]
  constructor
  · rintro ⟨has, id, found⟩
    exact ⟨(keeps.input given found.used).mp has, id, found⟩
  · rintro ⟨has, id, found⟩
    exact ⟨(keeps.input given found.used).mpr has, id, found⟩

theorem Keeps.discoveredCalls (keeps : Keeps s t) (given : input ≠ []) :
    discoveredCalls t input = discoveredCalls s input := by
  ext toolCallId
  rw [mem_discoveredCalls, mem_discoveredCalls]
  simp only [keeps.discovered]
  constructor
  · rintro ⟨turn, has, found⟩
    exact ⟨turn, (keeps.input given found.used).mp has, found⟩
  · rintro ⟨turn, has, found⟩
    exact ⟨turn, (keeps.input given found.used).mpr has, found⟩

theorem Keeps.unexhausted (keeps : Keeps s t) (given : input ≠ []) : unexhausted t input = unexhausted s input := by
  unfold Tools.unexhausted
  rw [keeps.discoveredTurns given, keeps.exhausted]

theorem hasInput_congr (turns : turnKeys t = turnKeys s) : HasInput t input turnId ↔ HasInput s input turnId := by
  rw [HasInput, turns, HasInput]

theorem Discovers.discoveredTurns_subset {ids : List Identifier} (discovers : Discovers s t turnId ids) :
    discoveredTurns t input ⊆ insert turnId (discoveredTurns s input) := by
  intro other inside
  rw [mem_discoveredTurns, hasInput_congr discovers.turns] at inside
  obtain ⟨has, id, found⟩ := inside
  rw [Finset.mem_insert, mem_discoveredTurns]
  rcases discovers.discovered.mp found with old | ⟨rfl, _⟩
  · exact .inr ⟨has, id, old⟩
  · exact .inl rfl

theorem Discovers.discoveredCalls_subset {ids : List Identifier} (discovers : Discovers s t turnId ids) :
    discoveredCalls t input ⊆ discoveredCalls s input ∪ ids.toFinset := by
  intro other inside
  rw [mem_discoveredCalls] at inside
  obtain ⟨turn, has, found⟩ := inside
  rw [hasInput_congr discovers.turns] at has
  rw [Finset.mem_union, mem_discoveredCalls, List.mem_toFinset]
  rcases discovers.discovered.mp found with old | ⟨_, new⟩
  · exact .inl ⟨turn, has, old⟩
  · exact .inr new

theorem Discovers.discoveredTurns_eq {ids : List Identifier} (discovers : Discovers s t turnId ids)
    (nothing : ids = [] ∨ ¬HasInput s input turnId) : discoveredTurns t input = discoveredTurns s input := by
  ext other
  rw [mem_discoveredTurns, mem_discoveredTurns, hasInput_congr discovers.turns]
  simp only [discovers.discovered]
  constructor
  · rintro ⟨has, id, old | ⟨rfl, new⟩⟩
    · exact ⟨has, id, old⟩
    · rcases nothing with rfl | none
      · cases new
      · exact (none has).elim
  · rintro ⟨has, id, old⟩
    exact ⟨has, id, .inl old⟩

/-! ### The beginning of a run -/

theorem mem_sameLogicalInput : turnId ∈ sameLogicalInput s input ↔ HasInput s input turnId := by
  simp only [sameLogicalInput, List.mem_map, List.mem_filter, beq_iff_eq, HasInput, turnKeys, exists_exists_and_eq_and]
  constructor
  · rintro ⟨turn, ⟨inside, same⟩, named⟩
    exact ⟨turn, inside, named, same⟩
  · rintro ⟨turn, inside, named, same⟩
    exact ⟨turn, ⟨inside, same⟩, named⟩

theorem durableDiscovered_keys : (durableDiscovered s (sameLogicalInput s input)).map callKey = discoveredKeys s input := by
  unfold durableDiscovered discoveredKeys callKeys
  rw [List.filter_map]
  refine congrArg (List.map callKey) (List.filter_congr fun call _ => ?_)
  have same : (sameLogicalInput s input).contains call.turnId = decide (HasInput s input call.turnId) := by
    rw [List.contains_eq_mem]
    exact decide_eq_decide.mpr mem_sameLogicalInput
  rw [same]
  rfl

theorem startLoop_counts (sound : Sound s) {turn : TurnResult} (has : HasInput s input turn.turnId) (now : Int) :
    (startLoop s turn now).iterations = (discoveredTurns s input).card ∧
      (startLoop s turn now).totalToolCalls = (discoveredCalls s input).card := by
  obtain ⟨key, inside, named, same⟩ := has
  obtain ⟨record, member, rfl⟩ := List.mem_map.mp inside
  have found : s.findTurn turn.turnId = some record := by
    have exists_ : (s.findTurn turn.turnId).isSome = true :=
      List.find?_isSome.mpr ⟨record, member, beq_iff_eq.mpr named⟩
    obtain ⟨other, other_found⟩ := Option.isSome_iff_exists.mp exists_
    have id : other.turnId = record.turnId := (by simpa using List.find?_some other_found : _ = _).trans named.symm
    have distinct := sound.turnIds
    rw [turnKeys, List.map_map] at distinct
    rw [other_found, List.inj_on_of_nodup_map distinct (List.mem_of_find?_eq_some other_found) member id]
  have input_eq : record.inputMessageIds = input := same
  unfold startLoop
  rw [found]
  simp only [input_eq]
  have keys : (durableDiscovered s (sameLogicalInput s input)).map callKey = discoveredKeys s input :=
    durableDiscovered_keys
  constructor
  · rw [discoveredTurns, List.card_toFinset, ← keys, List.map_map]
    rfl
  · rw [discoveredCalls, ← keys, List.map_map, List.toFinset_card_of_nodup, List.length_map]
    refine (List.Nodup.sublist ?_ (by
      have distinct := sound.callIds
      rwa [callKeys, List.map_map] at distinct))
    exact List.filter_sublist.map _

end

/-! ### The invariant -/

def LoopKeys (s : ConversationState) (loop : ToolLoop) : Prop :=
  match loop.phase with
  | .discovering calls => (calls.map ToolCallRecord.toolCallId).Nodup ∧
      ∀ call ∈ calls, call.turnId = loop.turn.turnId ∧ callKey call ∈ callKeys s
  | .counting calls => ∀ call ∈ calls, call.turnId = loop.turn.turnId ∧ Discovered s call.toolCallId loop.turn.turnId
  | .executing pool =>
    ∀ call ∈ pool.pending, call.turnId = loop.turn.turnId ∧ Discovered s call.toolCallId loop.turn.turnId
  | .linking _ approvals | .requiring _ approvals => ∀ payload ∈ approvals, isOrdinary payload = true
  | .observing next => next ∈ (turnKeys s).map Prod.fst ∧
      ∀ input, input ≠ [] → HasInput s input next → HasInput s input loop.turn.turnId
  | _ => True

def LoopCounts (options : LoopOptions) (input : List Identifier) (s : ConversationState) (loop : ToolLoop) : Prop :=
  let counted (iterations totalToolCalls : Nat) :=
    (discoveredTurns s input).card ≤ iterations ∧ (discoveredCalls s input).card ≤ totalToolCalls
  match loop.phase with
  | .discovering _ => counted loop.iterations loop.totalToolCalls ∧ loop.turn.turnId ∉ exhaustedTurns s
  | .counting calls => counted (if 0 < (undiscovered calls).length then loop.iterations + 1 else loop.iterations)
      (loop.totalToolCalls + (undiscovered calls).length) ∧ loop.turn.turnId ∉ exhaustedTurns s
  | .executing _ => counted loop.iterations loop.totalToolCalls ∧ loop.turn.turnId ∉ exhaustedTurns s ∧
      loop.totalToolCalls ≤ options.limits.maxTotalToolCalls.value
  | .exhausting _ _ | .returned _ => True
  | _ => counted loop.iterations loop.totalToolCalls

def spared (options : LoopOptions) (input : List Identifier) (system : LoopSystem) : Finset Identifier :=
  match system.loop with
  | some loop =>
    if overBudget options loop then (unexhausted system.state input).erase loop.turn.turnId
    else unexhausted system.state input
  | none => unexhausted system.state input

structure Budgeted (options : LoopOptions) (input : List Identifier) (system : LoopSystem) : Prop where
  sound : Sound system.state
  handed : ∀ call ∈ system.handed, Discovered system.state call.toolCallId call.turnId
  turns : (handedTurns system input ∪ spared options input system).card ≤ options.limits.maxIterations.value
  calls : (handedCalls system input).card ≤ options.limits.maxTotalToolCalls.value
  recorded : ∀ loop ∈ system.loop, loop.turn.turnId ∈ (turnKeys system.state).map Prod.fst
  keys : ∀ loop ∈ system.loop, LoopKeys system.state loop
  counts : ∀ loop ∈ system.loop, HasInput system.state input loop.turn.turnId →
    LoopCounts options input system.state loop

namespace Budgeted
variable {options : LoopOptions} {input : List Identifier} {system : LoopSystem} {s t : ConversationState}

/-! ### States that keep what is counted -/

theorem loopKeys_of_keeps {loop : ToolLoop} (keeps : Keeps s t)
    (recorded : loop.turn.turnId ∈ (turnKeys s).map Prod.fst) (keys : LoopKeys s loop) : LoopKeys t loop := by
  unfold LoopKeys at keys ⊢
  split at keys
  · exact ⟨keys.1, fun call inside => ⟨(keys.2 call inside).1, keeps.calls _ (keys.2 call inside).2⟩⟩
  · exact fun call inside => ⟨(keys call inside).1, keeps.discovered.mpr (keys call inside).2⟩
  · exact fun call inside => ⟨(keys call inside).1, keeps.discovered.mpr (keys call inside).2⟩
  · exact keys
  · exact keys
  · refine ⟨keeps.recorded keys.1, fun input given has => ?_⟩
    exact (keeps.input given (.inl recorded)).mpr (keys.2 input given ((keeps.input given (.inl keys.1)).mp has))
  · trivial

theorem loopCounts_of_keeps {loop : ToolLoop} (given : input ≠ []) (keeps : Keeps s t)
    (counts : LoopCounts options input s loop) : LoopCounts options input t loop := by
  unfold LoopCounts at counts ⊢
  rw [keeps.discoveredTurns given, keeps.discoveredCalls given, keeps.exhausted]
  exact counts

theorem handedTurns_of_keeps (budgeted : Budgeted options input system) (given : input ≠ [])
    (keeps : Keeps system.state t) (loop : Option ToolLoop) :
    handedTurns ⟨t, loop, system.handed⟩ input = handedTurns system input := by
  ext turnId
  rw [mem_handedTurns, mem_handedTurns]
  constructor
  · rintro ⟨has, call, inside, rfl⟩
    exact ⟨(keeps.input given (budgeted.handed call inside).used).mp has, call, inside, rfl⟩
  · rintro ⟨has, call, inside, rfl⟩
    exact ⟨(keeps.input given (budgeted.handed call inside).used).mpr has, call, inside, rfl⟩

theorem handedCalls_of_keeps (budgeted : Budgeted options input system) (given : input ≠ [])
    (keeps : Keeps system.state t) (loop : Option ToolLoop) :
    handedCalls ⟨t, loop, system.handed⟩ input = handedCalls system input := by
  ext toolCallId
  rw [mem_handedCalls, mem_handedCalls]
  constructor
  · rintro ⟨call, inside, has, rfl⟩
    exact ⟨call, inside, (keeps.input given (budgeted.handed call inside).used).mp has, rfl⟩
  · rintro ⟨call, inside, has, rfl⟩
    exact ⟨call, inside, (keeps.input given (budgeted.handed call inside).used).mpr has, rfl⟩

theorem enter (budgeted : Budgeted options input system) (given : input ≠ []) (keeps : Keeps system.state t)
    {loop : Option ToolLoop}
    (within : spared options input ⟨t, loop, system.handed⟩ ⊆ spared options input system)
    (recorded : ∀ next ∈ loop, next.turn.turnId ∈ (turnKeys t).map Prod.fst)
    (keys : ∀ next ∈ loop, LoopKeys t next)
    (counts : ∀ next ∈ loop, HasInput t input next.turn.turnId → LoopCounts options input t next) :
    Budgeted options input ⟨t, loop, system.handed⟩ where
  sound := keeps.sound budgeted.sound
  handed call inside := keeps.discovered.mpr (budgeted.handed call inside)
  turns := by
    rw [budgeted.handedTurns_of_keeps given keeps]
    exact (Finset.card_le_card (Finset.union_subset_union_right within)).trans budgeted.turns
  calls := by
    rw [budgeted.handedCalls_of_keeps given keeps]
    exact budgeted.calls
  recorded := recorded
  keys := keys
  counts := counts

theorem outside (budgeted : Budgeted options input system) (given : input ≠ []) (keeps : Keeps system.state t) :
    Budgeted options input { system with state := t } := by
  obtain ⟨s, loop, handed⟩ := system
  refine budgeted.enter given keeps ?_ (fun next inside => keeps.recorded (budgeted.recorded next inside))
    (fun next inside => loopKeys_of_keeps keeps (budgeted.recorded next inside) (budgeted.keys next inside))
    fun next inside has => ?_
  · unfold spared
    rw [keeps.unexhausted given]
  · refine loopCounts_of_keeps given keeps (budgeted.counts next inside ?_)
    exact (keeps.input given (.inl (budgeted.recorded next inside))).mp has

theorem within_of_keeps {loop next : ToolLoop} {handed : List ToolCallRecord} (given : input ≠ []) (keeps : Keeps s t)
    (before : overBudget options loop = false) (after : overBudget options next = false) :
    spared options input ⟨t, some next, handed⟩ ⊆ spared options input ⟨s, some loop, handed⟩ := by
  simp only [spared, before, after, Bool.false_eq_true, ↓reduceIte, keeps.unexhausted given, Finset.Subset.refl]

theorem goOn {loop : ToolLoop} {handed : List ToolCallRecord}
    (budgeted : Budgeted options input ⟨s, some loop, handed⟩) (given : input ≠ []) (keeps : Keeps s t) {phase : Phase}
    (before : overBudget options loop = false) (after : overBudget options { loop with phase := phase } = false)
    (keys : LoopKeys t { loop with phase := phase })
    (counts : LoopCounts options input t loop → LoopCounts options input t { loop with phase := phase }) :
    Budgeted options input ⟨t, some { loop with phase := phase }, handed⟩ := by
  have recorded := budgeted.recorded loop rfl
  refine budgeted.enter given keeps (within_of_keeps given keeps before after) ?_ ?_ ?_
  · rintro next ⟨⟩
    exact keeps.recorded recorded
  · rintro next ⟨⟩
    exact keys
  · rintro next ⟨⟩ has
    exact counts (loopCounts_of_keeps given keeps (budgeted.counts loop rfl ((keeps.input given (.inl recorded)).mp has)))

/-! ### Phases -/

section
variable {turn : TurnResult} {startedAt : Int} {iterations totalToolCalls : Nat} {handed : List ToolCallRecord}
  {reading : Reading} {phase : Phase}

variable {call : ToolCallRecord}

theorem callsOf_turn {turnId : Identifier} (inside : call ∈ callsOf s turnId) :
    call.turnId = turnId ∧ callKey call ∈ callKeys s := by
  obtain ⟨member, same⟩ := List.mem_filter.mp inside
  exact ⟨beq_iff_eq.mp same, List.mem_map_of_mem member⟩

theorem callsOf_nodup (sound : Sound s) (turnId : Identifier) : ((callsOf s turnId).map ToolCallRecord.toolCallId).Nodup := by
  have distinct := sound.callIds
  rw [callKeys, List.map_map] at distinct
  exact distinct.sublist (List.filter_sublist.map _)

theorem notMem_exhausted {turnId : Identifier}
    (none : (s.toolLoopBudgetExhaustions.find? fun item => item.turnId == turnId) = none) : turnId ∉ exhaustedTurns s := by
  intro inside
  obtain ⟨item, member, same⟩ := List.mem_map.mp inside
  exact List.find?_eq_none.mp none item member (beq_iff_eq.mpr same)

theorem inspectCalls_ok (budgeted : Budgeted options input ⟨s,
    some ⟨turn, startedAt, iterations, totalToolCalls, .inspecting⟩, handed⟩)
    (given : input ≠ []) : Budgeted options input ⟨s, some ⟨turn, startedAt, iterations, totalToolCalls,
      inspectCalls s ⟨turn, startedAt, iterations, totalToolCalls, .inspecting⟩⟩, handed⟩ := by
  unfold inspectCalls
  dsimp only
  split
  · exact budgeted.goOn given (.refl s) rfl rfl trivial fun _ => trivial
  · split
    · exact budgeted.goOn given (.refl s) rfl rfl trivial fun _ => trivial
    · rename_i none
      split
      · -- Every call is discovered already.
        rename_i all
        have nothing : undiscovered (callsOf s turn.turnId) = [] := List.isEmpty_iff.mp all
        refine budgeted.goOn given (.refl s) rfl ?_ (fun call inside => ?_) fun counts => ⟨?_, notMem_exhausted none⟩
        · simp [overBudget, nothing]
        · obtain ⟨same, key⟩ := callsOf_turn inside
          have known : call.discoveredAt.isNone = false :=
            Bool.eq_false_iff.mpr (List.filter_eq_nil_iff.mp nothing call inside)
          refine ⟨same, ?_⟩
          rw [callKey, same, ← Option.not_isNone, known] at key
          exact key
        · have counted : (discoveredTurns s input).card ≤ iterations ∧ (discoveredCalls s input).card ≤ totalToolCalls := counts
          simpa [nothing] using counted
      · exact budgeted.goOn given (.refl s) rfl rfl ⟨callsOf_nodup budgeted.sound _, fun call inside => callsOf_turn inside⟩
          fun counts => ⟨counts, notMem_exhausted none⟩

theorem inspect_ok (budgeted : Budgeted options input ⟨s,
    some ⟨turn, startedAt, iterations, totalToolCalls, .inspecting⟩, handed⟩)
    (given : input ≠ []) : Budgeted options input ⟨s, some ⟨turn, startedAt, iterations, totalToolCalls,
      inspect options s ⟨turn, startedAt, iterations, totalToolCalls, .inspecting⟩ reading⟩, handed⟩ := by
  have returned (status : LoopStatus) : Budgeted options input
      ⟨s, some ⟨turn, startedAt, iterations, totalToolCalls, .returned status⟩, handed⟩ :=
    budgeted.goOn given (.refl s) rfl rfl trivial fun _ => trivial
  unfold inspect
  split
  · exact returned _
  · split
    · exact budgeted.goOn given (.refl s) rfl rfl trivial fun _ => trivial
    · split
      · exact returned _
      · exact returned _
      · exact returned _
      · exact returned _
      · split
        · exact returned _
        · exact returned _
        · exact returned _
        · split
          · exact returned _
          · exact budgeted.inspectCalls_ok given

theorem rejected (budgeted : Budgeted options input ⟨s, some ⟨turn, startedAt, iterations, totalToolCalls, phase⟩, handed⟩)
    (given : input ≠ [])
    (before : overBudget options ⟨turn, startedAt, iterations, totalToolCalls, phase⟩ = false) (status : LoopStatus) :
    Budgeted options input ⟨s, some ⟨turn, startedAt, iterations, totalToolCalls, .returned status⟩, handed⟩ :=
  budgeted.goOn given (.refl s) before rfl trivial fun _ => trivial

theorem recordThen_ok {next : Phase} {payloads : List ConversationEventPayload}
    (budgeted : Budgeted options input ⟨s, some ⟨turn, startedAt, iterations, totalToolCalls, phase⟩, handed⟩)
    (given : input ≠ []) (ordinary : ∀ payload ∈ payloads, isOrdinary payload = true)
    (before : overBudget options ⟨turn, startedAt, iterations, totalToolCalls, phase⟩ = false)
    (after : overBudget options ⟨turn, startedAt, iterations, totalToolCalls, next⟩ = false)
    (keys : ∀ t, LoopKeys t ⟨turn, startedAt, iterations, totalToolCalls, next⟩)
    (counts : ∀ t, LoopCounts options input t ⟨turn, startedAt, iterations, totalToolCalls, phase⟩ →
      LoopCounts options input t ⟨turn, startedAt, iterations, totalToolCalls, next⟩) :
    Budgeted options input ⟨(recordThen options s reading payloads next).1,
      some ⟨turn, startedAt, iterations, totalToolCalls, (recordThen options s reading payloads next).2⟩, handed⟩ := by
  unfold recordThen
  split
  · rename_i t recorded
    exact budgeted.goOn given (keeps_record ordinary recorded) before after (keys t) (counts t)
  · exact budgeted.rejected given before _

variable {calls : List ToolCallRecord}

theorem mem_undiscovered (inside : call ∈ undiscovered calls) :
    call ∈ calls ∧ call.discoveredAt.isSome = false := by
  obtain ⟨member, none⟩ := List.mem_filter.mp inside
  exact ⟨member, by rw [← Option.not_isNone, none]; rfl⟩

/-- The discoveries of a turn stay within the budget, or the turn is about to be exhausted. -/
theorem spared_of_discovers
    (budgeted : Budgeted options input ⟨s, some ⟨turn, startedAt, iterations, totalToolCalls, .discovering calls⟩, handed⟩)
    (discovers : Discovers s t turn.turnId ((undiscovered calls).map ToolCallRecord.toolCallId)) :
    (handedTurns ⟨s, none, handed⟩ input ∪
      spared options input ⟨t, some ⟨turn, startedAt, iterations, totalToolCalls, .counting calls⟩, handed⟩).card ≤
        options.limits.maxIterations.value := by
  have bound : (handedTurns ⟨s, none, handed⟩ input ∪ unexhausted s input).card ≤ options.limits.maxIterations.value :=
    budgeted.turns
  have kept {within : Finset Identifier} (subset : within ⊆ unexhausted s input) :
      (handedTurns ⟨s, none, handed⟩ input ∪ within).card ≤ options.limits.maxIterations.value :=
    (Finset.card_le_card (Finset.union_subset_union_right subset)).trans bound
  have unexhausted_subset : (unexhausted t input).erase turn.turnId ⊆ unexhausted s input := by
    intro other inside
    obtain ⟨different, inside⟩ := Finset.mem_erase.mp inside
    rw [mem_unexhausted, discovers.exhausted] at inside
    refine mem_unexhausted.mpr ⟨?_, inside.2⟩
    exact Finset.mem_of_mem_insert_of_ne (discovers.discoveredTurns_subset inside.1) different
  by_cases exceeded : overBudget options ⟨turn, startedAt, iterations, totalToolCalls, .counting calls⟩ = true
  · simp only [spared, exceeded, ↓reduceIte]
    exact kept unexhausted_subset
  · simp only [spared, exceeded, Bool.false_eq_true, ↓reduceIte]
    by_cases has : HasInput s input turn.turnId
    · by_cases new : 0 < (undiscovered calls).length
      · -- One more turn is within the budget.
        simp only [overBudget, new, true_and, decide_eq_true_eq, not_le] at exceeded
        obtain ⟨counted, _⟩ := budgeted.counts _ rfl has
        have grown : (discoveredTurns t input).card ≤ options.limits.maxIterations.value :=
          calc (discoveredTurns t input).card
              ≤ (insert turn.turnId (discoveredTurns s input)).card := Finset.card_le_card discovers.discoveredTurns_subset
            _ ≤ (discoveredTurns s input).card + 1 := Finset.card_insert_le _ _
            _ ≤ iterations + 1 := Nat.add_le_add_right counted.1 1
            _ ≤ options.limits.maxIterations.value := exceeded
        refine (Finset.card_le_card (Finset.union_subset ?_ ?_)).trans grown
        · intro other inside
          obtain ⟨has, call, member, rfl⟩ := mem_handedTurns.mp inside
          exact mem_discoveredTurns.mpr ⟨(hasInput_congr discovers.turns).mpr has, _,
            discovers.discovered.mpr (.inl (budgeted.handed call member))⟩
        · exact Finset.filter_subset _ _
      · have nothing : undiscovered calls = [] := List.length_eq_zero_iff.mp (Nat.le_zero.mp (Nat.not_lt.mp new))
        refine kept (le_of_eq ?_)
        unfold unexhausted
        rw [discovers.discoveredTurns_eq (.inl (by rw [nothing]; rfl)), discovers.exhausted]
    · refine kept (le_of_eq ?_)
      unfold unexhausted
      rw [discovers.discoveredTurns_eq (.inr has), discovers.exhausted]

theorem discover_ok
    (budgeted : Budgeted options input ⟨s, some ⟨turn, startedAt, iterations, totalToolCalls, .discovering calls⟩, handed⟩)
    (given : input ≠ []) {next : ConversationState × Phase}
    (stepped : next = recordThen options s reading
      ((undiscovered calls).map fun call => .toolCallDiscovered turn.turnId call.toolCallId) (.counting calls)) :
    Budgeted options input ⟨next.1, some ⟨turn, startedAt, iterations, totalToolCalls, next.2⟩, handed⟩ := by
  subst stepped
  unfold recordThen
  split
  · rename_i t recorded
    obtain ⟨distinct, keys⟩ := budgeted.keys _ rfl
    have known := budgeted.recorded _ rfl
    have inside : ∀ id ∈ (undiscovered calls).map ToolCallRecord.toolCallId, (id, turn.turnId, false) ∈ callKeys s := by
      rw [List.forall_mem_map]
      intro call member
      obtain ⟨member, undiscovered⟩ := mem_undiscovered member
      obtain ⟨same, key⟩ := keys call member
      have same : call.turnId = turn.turnId := same
      rwa [callKey, same, undiscovered] at key
    have facts : recordToolLoopEvents options.conversationId s reading.stamp
        (((undiscovered calls).map ToolCallRecord.toolCallId).map (.toolCallDiscovered turn.turnId)) = some t := by
      rw [List.map_map]
      exact recorded
    have discovers := discovers_record budgeted.sound inside (distinct.sublist (List.filter_sublist.map _)) facts
    have has {other : Identifier} : HasInput t input other ↔ HasInput s input other := hasInput_congr discovers.turns
    refine ⟨discovers.sound budgeted.sound, fun call member => discovers.discovered.mpr (.inl (budgeted.handed call member)),
      ?_, ?_, ?_, ?_, ?_⟩
    · have same : handedTurns ⟨t, some ⟨turn, startedAt, iterations, totalToolCalls, .counting calls⟩, handed⟩ input =
          handedTurns ⟨s, none, handed⟩ input := by
        ext other
        rw [mem_handedTurns, mem_handedTurns, has]
      rw [same]
      exact budgeted.spared_of_discovers discovers
    · have same : handedCalls ⟨t, some ⟨turn, startedAt, iterations, totalToolCalls, .counting calls⟩, handed⟩ input =
          handedCalls ⟨s, some ⟨turn, startedAt, iterations, totalToolCalls, .discovering calls⟩, handed⟩ input := by
        ext other
        simp only [mem_handedCalls, has]
      rw [same]
      exact budgeted.calls
    · rintro loop ⟨⟩
      rw [discovers.turns]
      exact known
    · rintro loop ⟨⟩ call member
      obtain ⟨same, key⟩ := keys call member
      have same : call.turnId = turn.turnId := same
      refine ⟨same, discovers.discovered.mpr ?_⟩
      by_cases known : call.discoveredAt.isSome = true
      · rw [callKey, same, known] at key
        exact .inl key
      · refine .inr ⟨rfl, List.mem_map_of_mem (List.mem_filter.mpr ⟨member, ?_⟩)⟩
        rw [← Option.not_isSome, Bool.eq_false_iff.mpr known]
        rfl
    · rintro loop ⟨⟩ input_has
      obtain ⟨⟨turns, calls_⟩, unexhausted⟩ := budgeted.counts _ rfl (has.mp input_has)
      refine ⟨⟨?_, ?_⟩, discovers.exhausted ▸ unexhausted⟩
      · split
        · exact (Finset.card_le_card discovers.discoveredTurns_subset).trans
            ((Finset.card_insert_le _ _).trans (Nat.add_le_add_right turns 1))
        · rename_i none
          have nothing : undiscovered calls = [] := List.length_eq_zero_iff.mp (Nat.le_zero.mp (Nat.not_lt.mp none))
          rw [discovers.discoveredTurns_eq (.inl (by rw [nothing]; rfl))]
          exact turns
      · calc (discoveredCalls t input).card
            ≤ (discoveredCalls s input ∪ ((undiscovered calls).map ToolCallRecord.toolCallId).toFinset).card :=
              Finset.card_le_card discovers.discoveredCalls_subset
          _ ≤ (discoveredCalls s input).card + ((undiscovered calls).map ToolCallRecord.toolCallId).toFinset.card :=
              Finset.card_union_le _ _
          _ ≤ totalToolCalls + (undiscovered calls).length := by
              refine Nat.add_le_add calls_ ((List.toFinset_card_le _).trans (le_of_eq (List.length_map _)))
  · exact budgeted.rejected given rfl _

theorem openPool_pending
    (inside : call ∈ (openPool options calls).pending) : call ∈ calls := (List.mem_filter.mp inside).1

theorem count_ok
    (budgeted : Budgeted options input ⟨s, some ⟨turn, startedAt, iterations, totalToolCalls, .counting calls⟩, handed⟩)
    (given : input ≠ []) :
    Budgeted options input ⟨s, some (count options ⟨turn, startedAt, iterations, totalToolCalls, .counting calls⟩ calls),
      handed⟩ := by
  have recorded := budgeted.recorded _ rfl
  have keys := budgeted.keys _ rfl
  unfold count
  dsimp only
  split
  · rename_i exceeded
    have before : overBudget options ⟨turn, startedAt, iterations, totalToolCalls, .counting calls⟩ = true :=
      decide_eq_true exceeded
    refine budgeted.enter given (.refl s) ?_ ?_ ?_ ?_
    · have after : overBudget options ⟨turn, startedAt, iterations, totalToolCalls,
          .exhausting .iterations options.limits.maxIterations⟩ = true := rfl
      simp only [spared, before, after, ↓reduceIte, Finset.Subset.refl]
    · rintro next ⟨⟩
      exact recorded
    · rintro next ⟨⟩
      trivial
    · rintro next ⟨⟩ _
      trivial
  · rename_i within
    have before : overBudget options ⟨turn, startedAt, iterations, totalToolCalls, .counting calls⟩ = false :=
      decide_eq_false within
    split
    · exact budgeted.goOn given (.refl s) before rfl trivial fun _ => trivial
    · rename_i total
      refine budgeted.enter given (.refl s) (within_of_keeps given (.refl s) before rfl) ?_ ?_ ?_
      · rintro next ⟨⟩
        exact recorded
      · rintro next ⟨⟩ call inside
        exact keys call (openPool_pending inside)
      · rintro next ⟨⟩ has
        obtain ⟨counted, unexhausted⟩ := budgeted.counts _ rfl has
        exact ⟨counted, unexhausted, Nat.not_lt.mp total⟩

theorem exhaust_ok {budget : ToolLoopBudget} {limit : PositiveSafeInteger}
    (budgeted : Budgeted options input
      ⟨s, some ⟨turn, startedAt, iterations, totalToolCalls, .exhausting budget limit⟩, handed⟩)
    (given : input ≠ []) {next : ConversationState × Phase}
    (stepped : next = exhaust options s ⟨turn, startedAt, iterations, totalToolCalls, .exhausting budget limit⟩ reading
      budget limit)
    (kept : budget = .iterations → next.2 ≠ .returned .rejected) :
    Budgeted options input ⟨next.1, some ⟨turn, startedAt, iterations, totalToolCalls, next.2⟩, handed⟩ := by
  have recorded := budgeted.recorded _ rfl
  have fewer {within : Finset Identifier}
      (subset : within ⊆ (unexhausted s input).erase turn.turnId) : within ⊆ spared options input
        ⟨s, some ⟨turn, startedAt, iterations, totalToolCalls, .exhausting budget limit⟩, handed⟩ := by
    simp only [spared]
    split
    · exact subset
    · exact subset.trans (Finset.erase_subset _ _)
  unfold exhaust at stepped
  split at stepped
  · -- The exhaustion is recorded already.
    rename_i known
    subst stepped
    refine budgeted.enter given (.refl s) (fewer ?_) ?_ ?_ ?_
    · simp only [spared, overBudget, Bool.false_eq_true, ↓reduceIte]
      intro other inside
      refine Finset.mem_erase.mpr ⟨fun same => ?_, inside⟩
      obtain ⟨item, member, named⟩ := List.any_eq_true.mp known
      simp only [Bool.and_eq_true, beq_iff_eq] at named
      exact (mem_unexhausted.mp inside).2 (List.mem_map.mpr ⟨item, member, named.1.trans same.symm⟩)
    · rintro next ⟨⟩
      exact recorded
    · rintro next ⟨⟩
      trivial
    · rintro next ⟨⟩ _
      trivial
  · unfold recordThen at stepped
    split at stepped
    · rename_i t facts
      subst stepped
      have exhausts := exhausts_record facts
      have has {other : Identifier} : HasInput t input other ↔ HasInput s input other := hasInput_congr exhausts.turns
      have discovered {id other : Identifier} : Discovered t id other ↔ Discovered s id other := by
        rw [Discovered, exhausts.calls, Discovered]
      refine ⟨budgeted.sound.congr exhausts.turns exhausts.calls, fun call member =>
        discovered.mpr (budgeted.handed call member), ?_, ?_, ?_, ?_, ?_⟩
      · refine (Finset.card_le_card (Finset.union_subset_union ?_ (fewer ?_))).trans budgeted.turns
        · intro other inside
          rw [mem_handedTurns, has] at inside
          exact mem_handedTurns.mpr inside
        · simp only [spared, overBudget, Bool.false_eq_true, ↓reduceIte]
          intro other inside
          rw [mem_unexhausted, mem_discoveredTurns, has, exhausts.exhausted, not_or] at inside
          obtain ⟨⟨input_has, id, found⟩, unexhausted, different⟩ := inside
          exact Finset.mem_erase.mpr ⟨different, mem_unexhausted.mpr
            ⟨mem_discoveredTurns.mpr ⟨input_has, id, discovered.mp found⟩, unexhausted⟩⟩
      · refine (Finset.card_le_card ?_).trans budgeted.calls
        intro other inside
        simp only [mem_handedCalls, has] at inside
        exact mem_handedCalls.mpr inside
      · rintro next ⟨⟩
        rw [exhausts.turns]
        exact recorded
      · rintro next ⟨⟩
        trivial
      · rintro next ⟨⟩ _
        trivial
    · subst stepped
      refine budgeted.rejected given ?_ _
      cases budget with
      | iterations => exact (kept rfl rfl).elim
      | totalToolCalls | wallClock => rfl

theorem pool_ok {pool next : Pool}
    (budgeted : Budgeted options input ⟨s, some ⟨turn, startedAt, iterations, totalToolCalls, .executing pool⟩, handed⟩)
    (given : input ≠ []) (keeps : Keeps s t) (fewer : ∀ call ∈ next.pending, call ∈ pool.pending) :
    Budgeted options input ⟨t, some ⟨turn, startedAt, iterations, totalToolCalls, .executing next⟩, handed⟩ := by
  have keys := loopKeys_of_keeps keeps (budgeted.recorded _ rfl) (budgeted.keys _ rfl)
  exact budgeted.goOn given keeps rfl rfl (fun call inside => keys call (fewer call inside)) id

/-- A pending call is handed to the executor: its turn and the call are counted already. -/
theorem handOver_ok {pool : Pool}
    (budgeted : Budgeted options input ⟨s, some ⟨turn, startedAt, iterations, totalToolCalls, .executing pool⟩, handed⟩)
    (pending : call ∈ pool.pending) : Budgeted options input
      ⟨s, some ⟨turn, startedAt, iterations, totalToolCalls, .executing pool⟩, handed ++ [call]⟩ := by
  obtain ⟨same, discovered⟩ := budgeted.keys _ rfl call pending
  have same : call.turnId = turn.turnId := same
  have discovered : Discovered s call.toolCallId turn.turnId := discovered
  have known : ∀ other ∈ handed ++ [call], Discovered s other.toolCallId other.turnId := by
    intro other inside
    rcases List.mem_append.mp inside with old | last
    · exact budgeted.handed other old
    · rw [List.mem_singleton.mp last, same]
      exact discovered
  refine ⟨budgeted.sound, known, (Finset.card_le_card ?_).trans budgeted.turns, ?_, budgeted.recorded, budgeted.keys,
    budgeted.counts⟩
  · intro other inside
    rcases Finset.mem_union.mp inside with turns | spared
    · obtain ⟨has, call', member, rfl⟩ := mem_handedTurns.mp turns
      rcases List.mem_append.mp member with old | last
      · exact Finset.mem_union_left _ (mem_handedTurns.mpr ⟨has, call', old, rfl⟩)
      · obtain rfl := List.mem_singleton.mp last
        rw [same] at has ⊢
        obtain ⟨_, unexhausted, _⟩ := budgeted.counts _ rfl has
        exact Finset.mem_union_right _ (mem_unexhausted.mpr ⟨mem_discoveredTurns.mpr ⟨has, _, discovered⟩, unexhausted⟩)
    · exact Finset.mem_union_right _ spared
  · by_cases has : HasInput s input turn.turnId
    · obtain ⟨⟨_, counted⟩, _, total⟩ := budgeted.counts _ rfl has
      refine (Finset.card_le_card ?_).trans (counted.trans total)
      intro other inside
      obtain ⟨call', member, input_has, rfl⟩ := mem_handedCalls.mp inside
      exact mem_discoveredCalls.mpr ⟨_, input_has, known call' member⟩
    · refine (Finset.card_le_card ?_).trans budgeted.calls
      intro other inside
      obtain ⟨call', member, input_has, rfl⟩ := mem_handedCalls.mp inside
      rcases List.mem_append.mp member with old | last
      · exact mem_handedCalls.mpr ⟨call', old, input_has, rfl⟩
      · obtain rfl := List.mem_singleton.mp last
        exact (has (same ▸ input_has)).elim

theorem takeCall_pending (pool : Pool) (stopped : Bool) :
    ∀ call ∈ (takeCall pool stopped).1.pending, call ∈ pool.pending := by
  intro other inside
  unfold takeCall at inside
  split at inside
  · exact inside
  · rename_i call rest pending
    split at inside
    · exact inside
    · rw [pending]
      split at inside <;> exact List.mem_cons_of_mem _ inside

theorem takeCall_taken {pool : Pool} {stopped : Bool}
    (taken : (takeCall pool stopped).2 = some call) : call ∈ pool.pending := by
  unfold takeCall at taken
  split at taken
  · cases taken
  · rename_i first rest pending
    rw [pending]
    split at taken
    · cases taken
    · split at taken
      · cases taken
      · cases taken
        exact List.mem_cons_self

theorem finishCall_pending (pool : Pool) (stopped : Bool) (index : Nat) (outcome : ExecutionOutcome) :
    (finishCall pool stopped index outcome).pending = pool.pending := by
  unfold finishCall
  split
  · rfl
  · dsimp only
    split
    · rfl
    · split <;> rfl

theorem execute_ok {pool : Pool}
    (budgeted : Budgeted options input ⟨s, some ⟨turn, startedAt, iterations, totalToolCalls, .executing pool⟩, handed⟩)
    (given : input ≠ []) {next : ConversationState × Phase × Option ToolCallRecord}
    (stepped : next = execute options s ⟨turn, startedAt, iterations, totalToolCalls, .executing pool⟩ pool reading) :
    Budgeted options input ⟨next.1, some ⟨turn, startedAt, iterations, totalToolCalls, next.2.1⟩,
      handed ++ next.2.2.toList⟩ := by
  unfold execute at stepped
  dsimp only at stepped
  split at stepped
  · split at stepped
    · subst stepped
      simpa using budgeted.rejected given rfl _
    · split at stepped
      · subst stepped
        rw [Option.toList_none, List.append_nil]
        exact budgeted.goOn given (.refl s) rfl rfl trivial fun _ => trivial
      · subst stepped
        rw [Option.toList_none, List.append_nil]
        exact budgeted.goOn given (.refl s) rfl rfl trivial fun counts => counts.1
  · split at stepped
    · split at stepped
      · subst stepped
        rw [Option.toList_none, List.append_nil]
        exact budgeted
      · subst stepped
        dsimp only
        generalize (reading.aborted ||
          expired options ⟨turn, startedAt, iterations, totalToolCalls, .executing pool⟩ reading) = stopped
        cases taken : (takeCall pool stopped).2 with
        | none =>
          rw [Option.toList_none, List.append_nil]
          exact budgeted.pool_ok given (.refl s) (takeCall_pending pool stopped)
        | some call =>
          exact (budgeted.handOver_ok (takeCall_taken taken)).pool_ok given (.refl s) (takeCall_pending pool stopped)
    · split at stepped
      · subst stepped
        rw [Option.toList_none, List.append_nil]
        exact budgeted
      · subst stepped
        rw [Option.toList_none, List.append_nil]
        refine budgeted.pool_ok given ?_ fun call inside => inside
        split
        · cases facts : recordToolLoopEvents options.conversationId s reading.stamp [.toolCallStarted turn.turnId _] with
          | none => exact .refl s
          | some t => exact keeps_record (by simp [isOrdinary]) facts
        · exact .refl s
    · subst stepped
      rw [Option.toList_none, List.append_nil]
      refine budgeted.pool_ok given (.refl s) fun call inside => ?_
      rwa [finishCall_pending] at inside

theorem resultEvents_ordinary (turnId : Identifier) (batch : Batch) :
    ∀ payload ∈ resultEvents turnId batch, isOrdinary payload = true := by
  intro payload inside
  obtain ⟨call, _, found⟩ := List.mem_filterMap.mp inside
  obtain ⟨result, _, rfl⟩ := Option.map_eq_some_iff.mp found
  rfl

theorem citationEvents_ordinary (s : ConversationState) (turnId : Identifier) (batch : Batch) :
    ∀ payload ∈ citationEvents s turnId batch, isOrdinary payload = true := by
  intro payload inside
  obtain ⟨call, _, found⟩ := List.mem_filterMap.mp inside
  simp only [Option.bind_eq_bind, Option.bind_eq_some_iff] at found
  obtain ⟨_, _, _, _, records, _, found⟩ := found
  split at found
  · cases found
  · cases found
    rfl

theorem approvalEvents_ordinary (s : ConversationState) (turnId : Identifier) (batch : Batch) :
    ∀ payload ∈ approvalEvents s turnId batch, isOrdinary payload = true := by
  intro payload inside
  obtain ⟨id, _, rfl⟩ := List.mem_map.mp inside
  rfl

theorem continueTurn_ok {batch : Batch}
    (budgeted : Budgeted options input ⟨s, some ⟨turn, startedAt, iterations, totalToolCalls, .continuing batch⟩, handed⟩)
    (given : input ≠ []) {next : ConversationState × Phase} (stepped : next = continueTurn options s turn.turnId reading) :
    Budgeted options input ⟨next.1, some ⟨turn, startedAt, iterations, totalToolCalls, next.2⟩, handed⟩ := by
  unfold continueTurn at stepped
  split at stepped
  · rename_i existing found
    subst stepped
    have key : turnKey existing ∈ turnKeys s := List.mem_map_of_mem (List.mem_of_find?_eq_some found)
    have continues : existing.continuationOfTurnId = some turn.turnId := by simpa using List.find?_some found
    have preceding := budgeted.sound.continues _ key turn.turnId continues
    refine budgeted.goOn given (.refl s) rfl rfl ⟨List.mem_map_of_mem (f := Prod.fst) key, fun input _ has => ?_⟩ id
    rw [budgeted.sound.input_unique has ⟨_, key, rfl, rfl⟩]
    exact preceding
  · split at stepped
    · subst stepped
      exact budgeted.rejected given rfl _
    · rename_i preceding found
      split at stepped
      · subst stepped
        exact budgeted.rejected given rfl _
      · split at stepped
        · subst stepped
          exact budgeted.rejected given rfl _
        · rename_i fresh
          simp only [Bool.or_eq_true, not_or, Bool.not_eq_true] at fresh
          split at stepped
          · rename_i t persisted
            subst stepped
            have named : preceding.turnId = turn.turnId := by simpa using List.find?_some found
            have key : turnKey preceding ∈ turnKeys s := List.mem_map_of_mem (List.mem_of_find?_eq_some found)
            obtain ⟨events, payloads, accepted, rfl⟩ := persist_eq_some persisted
            cases events with
            | nil => cases payloads
            | cons event rest =>
              obtain ⟨payload, rest_nil⟩ := List.cons.inj payloads
              obtain rfl := List.map_eq_nil_iff.mp rest_nil
              have continues : ∀ id ∈ some preceding.turnId, HasInput s preceding.inputMessageIds id := by
                rintro id ⟨⟩
                exact ⟨_, key, rfl, rfl⟩
              have keeps := keeps_turnStarted payload (not_usesTurn fresh.1) continues
              have turns : turnKeys (reduceConversationEvent s event) =
                  turnKeys s ++ [(reading.turnId, preceding.inputMessageIds, some preceding.turnId)] := by
                rw [(acceptsAll_cons accepted).1, payload]
                exact turnKeys_turnStarted _ _ (not_usesTurn fresh.1)
              refine budgeted.goOn given keeps rfl rfl ⟨?_, fun input _ has => ?_⟩ id
              · rw [turns, List.map_append]
                exact List.mem_append_right _ (List.mem_singleton_self _)
              · obtain ⟨other, inside, same, alike⟩ := has
                rw [turns] at inside
                rcases List.mem_append.mp inside with old | last
                · exact (not_usesTurn fresh.1 (.inl (List.mem_map.mpr ⟨other, old, same⟩))).elim
                · obtain rfl := List.mem_singleton.mp last
                  exact ⟨turnKey preceding, by rw [turns]; exact List.mem_append_left _ key, named, alike⟩
          · subst stepped
            exact budgeted.rejected given rfl _

theorem observe_ok {next : Identifier} (after : TurnResult) (named : after.turnId = next)
    (budgeted : Budgeted options input ⟨s, some ⟨turn, startedAt, iterations, totalToolCalls, .observing next⟩, handed⟩)
    (given : input ≠ []) : Budgeted options input
      ⟨s, some ⟨after, startedAt, iterations, totalToolCalls, .inspecting⟩, handed⟩ := by
  obtain ⟨recorded, same⟩ := budgeted.keys _ rfl
  have counts := budgeted.counts _ rfl
  refine budgeted.enter given (.refl s) ?_ ?_ ?_ ?_
  · simp only [spared, overBudget, Bool.false_eq_true, ↓reduceIte, Finset.Subset.refl]
  · rintro loop ⟨⟩
    rw [named]
    exact recorded
  · rintro loop ⟨⟩
    trivial
  · rintro loop ⟨⟩ has
    exact counts (same input given (named ▸ has))

theorem nothing_handed {loop : Option ToolLoop} (budgeted : Budgeted options input ⟨s, loop, handed⟩) :
    Budgeted options input ⟨s, loop, handed ++ (none : Option ToolCallRecord).toList⟩ := by
  rw [Option.toList_none, List.append_nil]
  exact budgeted

theorem advance_ok {loop : ToolLoop} (budgeted : Budgeted options input ⟨s, some loop, handed⟩) (given : input ≠ [])
    (kept : cutsOff options ⟨s, some loop, handed⟩ (.advance reading) = false) :
    Budgeted options input (step options ⟨s, some loop, handed⟩ (.advance reading)) := by
  obtain ⟨turn, startedAt, iterations, totalToolCalls, phase⟩ := loop
  cases phase with
  | inspecting => exact (budgeted.inspect_ok given).nothing_handed
  | discovering calls => exact (budgeted.discover_ok given rfl).nothing_handed
  | counting calls => exact (budgeted.count_ok given).nothing_handed
  | exhausting budget limit =>
    refine (budgeted.exhaust_ok given rfl ?_).nothing_handed
    rintro rfl rejected
    simp only [cutsOff, Option.any_some] at kept
    rw [rejected] at kept
    cases kept
  | executing pool => exact budgeted.execute_ok given rfl
  | recording batch =>
    have next (t : ConversationState) : LoopKeys t ⟨turn, startedAt, iterations, totalToolCalls,
        .linking batch (approvalEvents s turn.turnId batch)⟩ := approvalEvents_ordinary s turn.turnId batch
    exact (budgeted.recordThen_ok given (resultEvents_ordinary _ _) rfl rfl next fun _ => id).nothing_handed
  | linking batch approvals =>
    have next (t : ConversationState) : LoopKeys t ⟨turn, startedAt, iterations, totalToolCalls,
        .requiring batch approvals⟩ := budgeted.keys _ rfl
    exact (budgeted.recordThen_ok given (citationEvents_ordinary _ _ _) rfl rfl next fun _ => id).nothing_handed
  | requiring batch approvals =>
    have ordinary : ∀ payload ∈ approvals, isOrdinary payload = true := budgeted.keys _ rfl
    have next (phase : Phase) (goes : (∃ status, phase = .returned status) ∨ phase = .continuing batch) :
        Budgeted options input ⟨(recordThen options s reading approvals phase).1, some ⟨turn, startedAt, iterations,
          totalToolCalls, (recordThen options s reading approvals phase).2⟩, handed⟩ := by
      rcases goes with ⟨status, rfl⟩ | rfl
      · exact budgeted.recordThen_ok given ordinary rfl rfl (fun _ => trivial) fun _ _ => trivial
      · exact budgeted.recordThen_ok given ordinary rfl rfl (fun _ => trivial) fun _ => id
    refine (next _ ?_).nothing_handed
    split
    · exact .inl ⟨_, rfl⟩
    · split
      · exact .inl ⟨_, rfl⟩
      · exact .inr rfl
  | continuing batch =>
    unfold step advance
    dsimp only
    split
    · exact (budgeted.rejected given rfl _).nothing_handed
    · exact (budgeted.continueTurn_ok given rfl).nothing_handed
  | observing next => exact (budgeted.observe_ok _ rfl given).nothing_handed
  | returned status => exact budgeted.nothing_handed

end

/-! ### Steps and runs -/

theorem start_ok (budgeted : Budgeted options input system) (given : input ≠ []) {turn : TurnResult} {now : Int}
    (kept : cutsOff options system (.start turn now) = false) :
    Budgeted options input (step options system (.start turn now)) := by
  unfold step
  dsimp only
  split
  · exact budgeted
  · rename_i found
    rw [Option.isNone_iff_eq_none, ← ne_eq, Option.ne_none_iff_exists'] at found
    obtain ⟨record, found⟩ := found
    have named : record.turnId = turn.turnId := by simpa using List.find?_some found
    refine budgeted.enter given (.refl _) ?_ ?_ ?_ ?_
    · simp only [cutsOff, found, Option.isSome_some, Bool.true_and] at kept
      have within : overBudget options (startLoop system.state turn now) = false := rfl
      simp only [spared, within, Bool.false_eq_true, ↓reduceIte]
      cases running : system.loop with
      | none => exact Finset.Subset.refl _
      | some loop =>
        rw [running, Option.any_some] at kept
        simp only [kept, Bool.false_eq_true, ↓reduceIte, Finset.Subset.refl]
    · rintro loop ⟨⟩
      rw [turnKeys, List.map_map]
      exact List.mem_map.mpr ⟨record, List.mem_of_find?_eq_some found, named⟩
    · rintro loop ⟨⟩
      trivial
    · rintro loop ⟨⟩ has
      obtain ⟨iterations, totalToolCalls⟩ := startLoop_counts budgeted.sound has now
      exact ⟨le_of_eq iterations.symm, le_of_eq totalToolCalls.symm⟩

/-- A step that is not cut off stays within the budget. -/
theorem step_ok (budgeted : Budgeted options input system) (given : input ≠ []) {action : LoopAction}
    (kept : cutsOff options system action = false) : Budgeted options input (step options system action) := by
  cases action with
  | start turn now => exact budgeted.start_ok given kept
  | advance reading =>
    obtain ⟨s, loop, handed⟩ := system
    cases loop with
    | none => exact budgeted
    | some loop => exact budgeted.advance_ok given kept
  | outside event =>
    unfold step
    dsimp only
    split
    · rename_i admitted
      exact budgeted.outside given (keeps_outside admitted)
    · exact budgeted

theorem run_ok (budgeted : Budgeted options input system) (given : input ≠ []) {actions : List LoopAction}
    (kept : neverCutsOff options system actions = true) : Budgeted options input (run options system actions) := by
  induction actions generalizing system with
  | nil => exact budgeted
  | cons action rest ih =>
    simp only [neverCutsOff, Bool.and_eq_true, Bool.not_eq_true'] at kept
    exact ih (budgeted.step_ok given kept.1) kept.2

theorem handedTurns_nil : handedTurns ⟨s, none, []⟩ input = ∅ := rfl

theorem handedCalls_nil : handedCalls ⟨s, none, []⟩ input = ∅ := rfl

theorem initial (sound : Sound s) (starts : startsWithin options input s) : Budgeted options input ⟨s, none, []⟩ := by
  have none_running (loop : ToolLoop) (running : loop ∈ (none : Option ToolLoop)) : False := by cases running
  refine ⟨sound, fun _ inside => (List.not_mem_nil inside).elim, ?_, ?_, fun loop running => (none_running loop running).elim,
    fun loop running => (none_running loop running).elim, fun loop running => (none_running loop running).elim⟩
  · rw [handedTurns_nil, Finset.empty_union]
    exact starts.2
  · rw [handedCalls_nil, Finset.card_empty]
    exact Nat.zero_le _

end Budgeted

/-! ### The budgets -/

instance (options : LoopOptions) (input : List Identifier) (s : ConversationState) :
    Decidable (startsWithin options input s) := inferInstanceAs (Decidable (_ ∧ _))

/-- No run hands over more turns or calls of the input than its budgets allow. -/
theorem handed_within_budget (options : LoopOptions) (input : List Identifier) (given : input ≠ [])
    (log : List ConversationEvent) (actions : List LoopAction)
    (starts : startsWithin options input (foldEvents (createInitialConversationState (some options.conversationId)) log))
    (kept : neverCutsOff options
      ⟨foldEvents (createInitialConversationState (some options.conversationId)) log, none, []⟩ actions = true) :
    let system := run options
      ⟨foldEvents (createInitialConversationState (some options.conversationId)) log, none, []⟩ actions
    (handedTurns system input).card ≤ options.limits.maxIterations.value ∧
      (handedCalls system input).card ≤ options.limits.maxTotalToolCalls.value := by
  have sound := sound_of_log (some options.conversationId) log starts.1
  have budgeted := (Budgeted.initial sound starts).run_ok given kept
  exact ⟨(Finset.card_le_card Finset.subset_union_left).trans budgeted.turns, budgeted.calls⟩

/-! ### A cut before the exhaustion -/

def sampleId (text : String) (nonempty : 0 < (js text).length := by decide) (bounded : (js text).length ≤ 256 := by decide) :
    Identifier := ⟨js text, .inr nonempty, bounded⟩

theorem newYear_reads : timestampTime (js "2024-01-01T00:00:00Z") = some 1704067200000 := by decide +kernel

def sampleTime : Timestamp := ⟨js "2024-01-01T00:00:00Z", 1704067200000, newYear_reads⟩

def sampleLoopOptions : LoopOptions where
  conversationId := sampleConversationId
  limits := ⟨⟨1, Nat.one_pos, JsNumber.maxSafeInteger_pos⟩, ⟨5, by decide, by decide⟩, ⟨60000, by decide, by decide⟩,
    ⟨1, Nat.one_pos, JsNumber.maxSafeInteger_pos⟩⟩
  parallelToolCalls := false
  clientSource := .client (sampleId "web") none

def sampleFact (revision : Nat) (eventId : Identifier) (payload : ConversationEventPayload) : ConversationEvent :=
  draftEvent (sampleConversationId) revision eventId sampleTime ⟨⟨.system, none⟩, .runtime, none, none, payload⟩

def sampleToolTurn : List ConversationEvent :=
  [sampleFact 1 (sampleId "e1") (.turnStarted (sampleId "first") [sampleId "question"] none),
    sampleFact 2 (sampleId "e2") (.toolCallRequested (sampleId "first") (sampleId "call-1") (sampleId "search") ⟨[]⟩),
    sampleFact 3 (sampleId "e3") (.turnCompleted (sampleId "first") .toolCalls [])]

def sampleResult (turnId : Identifier) : TurnResult := ⟨turnId, .completed, some (js "request"), some .toolCalls, none⟩

def sampleReading (eventIds : List Identifier) (move : WorkerMove) : Reading where
  now := 1704067200000
  aborted := false
  stamp := ⟨sampleTime, eventIds⟩
  move := move
  turnId := sampleId "second"
  mutationId := sampleId "continue"
  status := .completed
  requestId := some (js "request")
  error := none

/-- A run of the first turn: discover, count, hand over, start, finish, record, link, require, continue. -/
def sampleRun : List LoopAction :=
  [.start (sampleResult (sampleId "first")) 1704067200000,
    .advance (sampleReading [] .take), .advance (sampleReading [sampleId "e4"] .take), .advance (sampleReading [] .take),
    .advance (sampleReading [] .take), .advance (sampleReading [sampleId "e5"] (.start 0)),
    .advance (sampleReading [] (.finish 0 (.completed ⟨sampleId "call-1", sampleId "search", [], false, none⟩))),
    .advance (sampleReading [] .take), .advance (sampleReading [] .take), .advance (sampleReading [sampleId "e6"] .take),
    .advance (sampleReading [] .take), .advance (sampleReading [] .take), .advance (sampleReading [sampleId "e7"] .take)]

def sampleSecondTurn : List LoopAction :=
  [.outside (sampleFact 8 (sampleId "e8")
      (.toolCallRequested (sampleId "second") (sampleId "call-2") (sampleId "search") ⟨[]⟩)),
    .outside (sampleFact 9 (sampleId "e9") (.turnCompleted (sampleId "second") .toolCalls [])),
    .advance (sampleReading [] .take), .advance (sampleReading [] .take), .advance (sampleReading [sampleId "e10"] .take)]

/-- Without the cut the second turn is exhausted, and the next run executes nothing. -/
theorem handed_within_budget_exhausted : ∃ options input log actions,
    (run options ⟨foldEvents (createInitialConversationState (some options.conversationId)) log, none, []⟩
      actions).state.toolLoopBudgetExhaustions.length = 1 ∧
    (handedTurns (run options ⟨foldEvents (createInitialConversationState (some options.conversationId)) log, none, []⟩
      actions) input).card ≤ options.limits.maxIterations.value := by
  let actions := sampleRun ++ sampleSecondTurn ++
    [.advance (sampleReading [] .take), .advance (sampleReading [sampleId "e11"] .take),
      .start (sampleResult (sampleId "second")) 1704067200000, .advance (sampleReading [] .take)]
  exact ⟨sampleLoopOptions, [sampleId "question"], sampleToolTurn, actions, by decide +kernel,
    (handed_within_budget sampleLoopOptions [sampleId "question"] (List.cons_ne_nil _ _) sampleToolTurn actions
      (by decide +kernel) (by decide +kernel)).1⟩

/-- The run is cut off after it has recorded the discoveries of the second turn: for the next one nothing of that turn
is new, and it hands over a second turn of one. -/
theorem cut_off_exceeds_budget : ∃ options input log actions, input ≠ [] ∧
    startsWithin options input (foldEvents (createInitialConversationState (some options.conversationId)) log) ∧
    options.limits.maxIterations.value < (handedTurns (run options
      ⟨foldEvents (createInitialConversationState (some options.conversationId)) log, none, []⟩ actions) input).card := by
  let actions := sampleRun ++ sampleSecondTurn ++
    [.start (sampleResult (sampleId "second")) 1704067200000, .advance (sampleReading [] .take),
      .advance (sampleReading [] .take), .advance (sampleReading [] .take)]
  exact ⟨sampleLoopOptions, [sampleId "question"], sampleToolTurn, actions, List.cons_ne_nil _ _, by decide +kernel,
    by decide +kernel⟩

end Handrail.Tools

import Handrail.Registry.RuntimeRegistry
import Mathlib.Logic.Relation

/-!
# What the registry does

A step of the registry is a few moves, each of which keeps what the registry owns in order. The moves say all that a step
can do to the entries, the constructions and the mutations, with the checks that were made before.
-/

namespace Handrail.Registry
open Js Catalog Concurrent

variable {C R Res E : Type}

def RegistryEvent.isPlain : RegistryEvent C R → Bool
  | .found _ | .allowed _ _ => true
  | _ => false

/-- `#mutate` has not come to the lifecycle entry. -/
def MutationStage.isWaiting : MutationStage Res E → Bool
  | .loading | .deciding _ => true
  | _ => false

def MutationStage.isExecuting : MutationStage Res E → Bool
  | .executing => true
  | _ => false

def MutationStage.result : MutationStage Res E → Option Res
  | .settled (.ok result) => some result
  | _ => none

def openedEvents (request : GetSnapshot C) : Except (Rejection E) R → List (RegistryEvent C R)
  | .ok runtime => [.opened request runtime]
  | .error _ => []

def RegistryEntry.isShared : RegistryEntry R Res → Bool
  | .pending _ | .live _ => true
  | .lifecycle _ | .deleted _ => false

/-- One move. An open shares what another one has made only as `shares` allows. -/
inductive Move [DecidableEq R] (shares : RuntimeRegistry C R Res E → GetSnapshot C → Prop) (s : RuntimeRegistry C R Res E) :
    RuntimeRegistry C R Res E → Prop where
  /-- The order of the entries is nobody's concern. -/
  | order (entries : OrderedMap ConversationId (RegistryEntry R Res)) (same : entries.get = s.entries.get)
      (size : entries.size = s.entries.size) : Move shares s { s with entries }
  | note (event : RegistryEvent C R) (plain : event.isPlain = true) : Move shares s (s.record event)
  | share (request : GetSnapshot C) (runtime : R) (live : s.entries.get request.conversationId = some (.live runtime))
      (shared : shares s request) : Move shares s (s.record (.opened request runtime))
  | join (request : GetSnapshot C) (k : Nat) (pending : s.entries.get request.conversationId = some (.pending k))
      (shared : shares s request) : Move shares s { s with opens := s.opens ++ [⟨request, k, none⟩] }
  | begin (request : GetSnapshot C) (usable : s.disposed = false) (free : s.entries.get request.conversationId = none)
      (room : s.entries.size < s.limits.maxEntries) (few : s.activeConstructions < s.limits.maxConcurrentConstructions) :
      Move shares s { s.setEntry request.conversationId (.pending s.constructions.length) with
        constructions := s.constructions ++ [⟨request, none, .loading⟩]
        activeConstructions := s.activeConstructions + 1
        opens := s.opens ++ [⟨request, s.constructions.length, none⟩] }
  | load (k : Nat) (c : Construction C R E) (descriptor : CatalogDescriptor) (found : s.constructions[k]? = some c)
      (loading : c.stage = .loading) : Move shares s ((s.record (.found c.request)).setStage k c (.deciding descriptor))
  | allow (k : Nat) (c : Construction C R E) (descriptor : CatalogDescriptor) (found : s.constructions[k]? = some c)
      (deciding : c.stage = .deciding descriptor) :
      Move shares s ((s.record (.allowed .open_ c.request)).setStage k c (.creating descriptor))
  | reject (k : Nat) (c : Construction C R E) (error : Rejection E) (found : s.constructions[k]? = some c)
      (running : c.stage.isRunning = true) : Move shares s (s.rejectConstruction k c error)
  | publish (k : Nat) (c : Construction C R E) (descriptor : CatalogDescriptor) (runtime : R)
      (found : s.constructions[k]? = some c) (creating : c.stage = .creating descriptor) (usable : s.disposed = false)
      (own : s.entries.get c.request.conversationId = some (.pending k)) :
      Move shares s (((s.record (.created c.request.conversationId runtime)).setEntry c.request.conversationId
        (.live runtime)).setStage k c (.returned (.ok runtime)))
  | discard (id : ConversationId) (runtime : R) : Move shares s ((s.record (.created id runtime)).destroyRuntime runtime)
  | settle (k : Nat) (c : Construction C R E) (outcome : Except (Rejection E) R) (found : s.constructions[k]? = some c)
      (returned : c.stage = .returned outcome) :
      Move shares s ({ s with activeConstructions := s.activeConstructions - 1 }.setStage k c (.settled outcome))
  | deliver (i k : Nat) (request : GetSnapshot C) (c : Construction C R E) (outcome : Except (Rejection E) R)
      (called : s.opens[i]? = some ⟨request, k, none⟩) (found : s.constructions[k]? = some c)
      (settled : c.stage = .settled outcome) :
      Move shares s { s with
        opens := s.opens.set i ⟨request, k, some outcome⟩
        history := s.history ++ openedEvents request outcome }
  | releases (releases : List ReleaseCall) : Move shares s { s with releases }
  | retire (id : ConversationId) (runtime : R) (live : s.entries.get id = some (.live runtime)) :
      Move shares s ((s.destroyRuntime runtime).deleteEntry id)
  | overtake (id : ConversationId) (k : Nat) (code : RegistryErrorCode) (pending : s.entries.get id = some (.pending k)) :
      Move shares s ((s.invalidatePending k code).deleteEntry id)
  | ask (action : LifecycleAction) (request : GetSnapshot C) :
      Move shares s { s with mutations := s.mutations ++ [⟨action, request, .loading⟩] }
  | wait (m : Nat) (o : Mutation C Res E) (stage : MutationStage Res E) (found : s.mutations[m]? = some o)
      (waiting : o.stage.isWaiting = true) (idle : stage.isExecuting = false) (unresolved : stage.result = none) :
      Move shares s (s.setMutation m o stage)
  | gate (m : Nat) (o : Mutation C Res E) (found : s.mutations[m]? = some o) (waiting : o.stage.isWaiting = true)
      (usable : s.disposed = false) (free : s.entries.get o.request.conversationId = none)
      (room : s.entries.size < s.limits.maxEntries) : Move shares s (s.gate m o)
  | finish (m : Nat) (o : Mutation C Res E) (result : Res) (found : s.mutations[m]? = some o)
      (executing : o.stage = .executing) : Move shares s (s.finishMutation m o result)
  | fail (m : Nat) (o : Mutation C Res E) (error : E) (found : s.mutations[m]? = some o)
      (executing : o.stage = .executing) : Move shares s (s.failMutation m o error)
  | close (pending : List Nat) (idle : ∀ id entry, s.entries.get id = some entry → entry.isShared = false) :
      Move shares s { s with entries := .empty, disposed := true, disposal := some pending }

abbrev Moves [DecidableEq R] (shares : RuntimeRegistry C R Res E → GetSnapshot C → Prop) :
    RuntimeRegistry C R Res E → RuntimeRegistry C R Res E → Prop := Relation.ReflTransGen (Move shares)

/-! ### Steps are moves -/

namespace RuntimeRegistry
variable {shares : RuntimeRegistry C R Res E → GetSnapshot C → Prop} {s : RuntimeRegistry C R Res E}

theorem isPending_iff {id : ConversationId} {k : Nat} :
    s.isPending id k = true ↔ s.entries.get id = some (.pending k) := by
  rw [isPending, beq_iff_eq, Option.bind_eq_some_iff]
  constructor
  · rintro ⟨entry, found, named⟩
    cases entry with
    | pending other =>
      rw [found, Option.some.inj named]
    | live _ | lifecycle _ | deleted _ => cases named
  · intro found
    exact ⟨_, found, rfl⟩

theorem isLifecycle_iff {id : ConversationId} {m : Nat} :
    s.isLifecycle id m = true ↔ s.entries.get id = some (.lifecycle m) := by
  rw [isLifecycle, beq_iff_eq, Option.bind_eq_some_iff]
  constructor
  · rintro ⟨entry, found, named⟩
    cases entry with
    | lifecycle other =>
      rw [found, Option.some.inj named]
    | live _ | pending _ | deleted _ => cases named
  · intro found
    exact ⟨_, found, rfl⟩

theorem has_of_get {id : ConversationId} {entry : RegistryEntry R Res} (found : s.entries.get id = some entry) :
    s.entries.has id = true := by
  rw [OrderedMap.has, found]
  rfl

theorem invalidatePending_eq (k : Nat) (code : RegistryErrorCode) : s.invalidatePending k code = { s with
    constructions := s.constructions.modify k fun c => { c with invalidation := c.invalidation.or (some code) } } := by
  unfold invalidatePending
  have modified {c : Construction C R E} (found : s.constructions[k]? = some c) :
      s.constructions.modify k (fun c => { c with invalidation := c.invalidation.or (some code) }) =
        s.constructions.set k { c with invalidation := c.invalidation.or (some code) } := by
    rw [List.modify_eq_set_getElem?, found]
    rfl
  cases found : s.constructions[k]? with
  | none =>
    dsimp only
    rw [List.modify_eq_self (List.getElem?_eq_none_iff.mp found)]
  | some c =>
    dsimp only
    rw [modified found]
    cases before : c.invalidation with
    | none => rfl
    | some earlier =>
      have same : { c with invalidation := some earlier } = c := by rw [← before]
      obtain ⟨small, here⟩ := List.getElem?_eq_some_iff.mp found
      rw [Option.some_or, same, ← here, List.set_getElem_self]
      rfl

variable [DecidableEq R]

theorem destroyRuntime_eq (runtime : R) : s.destroyRuntime runtime = { s with
    destroyedRuntimes := if runtime ∈ s.destroyedRuntimes then s.destroyedRuntimes else runtime :: s.destroyedRuntimes
    history := if runtime ∈ s.destroyedRuntimes then s.history else s.history ++ [.destroyed runtime] } := by
  unfold destroyRuntime
  by_cases before : runtime ∈ s.destroyedRuntimes
  · simp only [if_pos before]
  · simp only [if_neg before]
    rfl

/-! ### What a run of moves is made of -/

/-- What `open` shares, it may share. -/
def MayShare (shares : RuntimeRegistry C R Res E → GetSnapshot C → Prop) (s : RuntimeRegistry C R Res E) :
    RegistryStep C R Res E → Prop
  | .open_ input => s.disposed = false → ∀ request entry, snapshotGet input = .ok request →
      s.entries.get request.conversationId = some entry → entry.isShared = true → shares s request
  | _ => True

theorem moves_open (input : CatalogInput C) (may : s.MayShare shares (.open_ input)) :
    Moves shares s (s.open_ input).1 := by
  unfold open_
  split
  · exact .refl
  · rename_i usable
    have usable : s.disposed = false := eq_false_of_ne_true usable
    split
    · exact .refl
    · rename_i request parsed
      split
      · rename_i runtime live
        exact .single (.share request runtime live (may usable request _ parsed live rfl))
      · rename_i k pending
        exact .single (.join request k pending (may usable request _ parsed pending rfl))
      · exact .refl
      · exact .refl
      · rename_i free
        split
        · exact .refl
        · split
          · exact .refl
          · exact .single (.begin request usable free (by omega) (by omega))

theorem moves_release (conversationId : Option Json) : Moves shares s (s.release conversationId).1 := by
  unfold release
  split
  · exact .refl
  · split
    · exact .refl
    · rename_i id _
      split
      · exact .refl
      · exact .refl
      · exact .refl
      · rename_i runtime live
        have same : (s.deleteEntry id).destroyRuntime runtime = (s.destroyRuntime runtime).deleteEntry id := by
          rw [destroyRuntime_eq, destroyRuntime_eq]
          rfl
        dsimp only
        rw [same]
        exact .single (.retire id runtime live)
      · rename_i k pending
        have same : (s.deleteEntry id).invalidatePending k .constructionInvalidated =
            (s.invalidatePending k .constructionInvalidated).deleteEntry id := by
          rw [invalidatePending_eq, invalidatePending_eq]
          rfl
        dsimp only
        rw [same]
        exact .tail (.single (.overtake id k .constructionInvalidated pending)) (.releases _)

theorem moves_publish {k : Nat} {c : Construction C R E} {descriptor : CatalogDescriptor} (runtime : R)
    (found : s.constructions[k]? = some c) (creating : c.stage = .creating descriptor) :
    Moves shares s ((s.record (.created c.request.conversationId runtime)).publish k c runtime) := by
  unfold publish
  split
  · refine .tail (.single (.discard c.request.conversationId runtime)) (.reject k c _ ?_ ?_)
    · rw [destroyRuntime_eq]
      exact found
    · rw [creating]
      rfl
  · rename_i current
    simp only [Bool.or_eq_true, not_or, Bool.not_eq_true, Bool.not_eq_false'] at current
    exact .single (.publish k c descriptor runtime found creating current.1 (isPending_iff.mp current.2))

theorem moves_beginMutation {m : Nat} {o : Mutation C Res E} (fits : s.entries.size ≤ s.limits.maxEntries)
    (found : s.mutations[m]? = some o) (waiting : o.stage.isWaiting = true) : Moves shares s (s.beginMutation m o) := by
  have refused (error : Rejection E) : Moves shares s (s.setMutation m o (.settled (.error error))) :=
    .single (.wait m o _ found waiting rfl rfl)
  have gated {t : RuntimeRegistry C R Res E} {entry : RegistryEntry R Res}
      (held : s.entries.get o.request.conversationId = some entry) (usable : s.disposed = false)
      (entries : t.entries = s.entries.delete o.request.conversationId) (mutations : t.mutations = s.mutations)
      (limits : t.limits = s.limits) (disposed : t.disposed = s.disposed) (before : Moves shares s t) :
      Moves shares s { t.gate m o with entries := s.entries.set o.request.conversationId (.lifecycle m) } := by
    have there := has_of_get held
    have fewer := OrderedMap.size_delete there
    have absent : (s.entries.delete o.request.conversationId).has o.request.conversationId = false := by
      rw [OrderedMap.has, OrderedMap.get_delete_self]
      rfl
    refine (before.tail (.gate m o (mutations ▸ found) waiting (disposed.trans usable) ?_ ?_)).tail (.order _ ?_ ?_)
    · rw [entries, OrderedMap.get_delete_self]
    · rw [entries, limits]
      omega
    · change (s.entries.set _ _).get = (t.entries.set _ _).get
      rw [entries, OrderedMap.get_set, OrderedMap.get_set, OrderedMap.get_delete, Function.update_idem]
    · change (s.entries.set _ _).size = (t.entries.set _ _).size
      rw [entries, OrderedMap.size_set, OrderedMap.size_set, there, absent, if_pos rfl, if_neg (by decide)]
      exact fewer.symm
  unfold beginMutation
  dsimp only
  split
  · exact refused _
  · rename_i usable
    have usable : s.disposed = false := eq_false_of_ne_true usable
    split
    · exact refused _
    · exact refused _
    · rename_i free
      split
      · exact refused _
      · exact .single (.gate m o found waiting usable free (by omega))
    · rename_i runtime live
      have moved := gated live usable (t := (s.destroyRuntime runtime).deleteEntry o.request.conversationId)
        (by rw [destroyRuntime_eq]; rfl) (by rw [destroyRuntime_eq]; rfl) (by rw [destroyRuntime_eq]; rfl)
        (by rw [destroyRuntime_eq]; rfl) (.single (.retire _ runtime live))
      rw [destroyRuntime_eq] at moved ⊢
      exact moved
    · rename_i k pending
      have moved (code : RegistryErrorCode) := gated pending usable
        (t := (s.invalidatePending k code).deleteEntry o.request.conversationId)
        (by rw [invalidatePending_eq]; rfl) (by rw [invalidatePending_eq]; rfl) (by rw [invalidatePending_eq]; rfl)
        (by rw [invalidatePending_eq]; rfl) (.single (.overtake _ k code pending))
      simp only [invalidatePending_eq] at moved ⊢
      exact moved _

/-- The loop of `dispose` does not look at the entries any more, nor at `disposed`. -/
theorem foldl_disposeEntry (entries : List (RegistryEntry R Res))
    (m : OrderedMap ConversationId (RegistryEntry R Res)) (disposed : Bool) :
    entries.foldl disposeEntry { s with entries := m, disposed } =
      { entries.foldl disposeEntry s with entries := m, disposed } := by
  induction entries generalizing s with
  | nil => rfl
  | cons entry rest ih =>
    have first : disposeEntry { s with entries := m, disposed } entry =
        { disposeEntry s entry with entries := m, disposed } := by
      cases entry with
      | live runtime => simp only [disposeEntry, destroyRuntime_eq]
      | pending k => simp only [disposeEntry, invalidatePending_eq]
      | lifecycle _ | deleted _ => rfl
    rw [List.foldl_cons, first, ih]
    rfl

theorem moves_disposeEntries (shares : RuntimeRegistry C R Res E → GetSnapshot C → Prop)
    (entries : List (ConversationId × RegistryEntry R Res))
    (distinct : (entries.map Prod.fst).Nodup) (there : ∀ entry ∈ entries, s.entries.get entry.1 = some entry.2) :
    ∃ m : OrderedMap ConversationId (RegistryEntry R Res),
      Moves shares s { (entries.map Prod.snd).foldl disposeEntry s with entries := m, disposed := s.disposed } ∧
      ∀ id entry, m.get id = some entry → s.entries.get id = some entry ∧ ((id, entry) ∈ entries → entry.isShared = false) := by
  induction entries generalizing s with
  | nil => exact ⟨s.entries, .refl, fun id entry found => ⟨found, fun inside => absurd inside List.not_mem_nil⟩⟩
  | cons head rest ih =>
    obtain ⟨id, entry⟩ := head
    obtain ⟨apart, distinct⟩ := List.nodup_cons.mp distinct
    have here := there (id, entry) List.mem_cons_self
    have others : ∀ other ∈ rest, other.1 ≠ id := fun other inside same =>
      apart (List.mem_map.mpr ⟨other, inside, same⟩)
    have later (other : ConversationId × RegistryEntry R Res) (inside : other ∈ rest) :
        (s.entries.delete id).get other.1 = some other.2 := by
      rw [OrderedMap.get_delete_other _ (others other inside)]
      exact there other (List.mem_cons_of_mem _ inside)
    -- A shared entry leaves the map before the loop goes on.
    have leaves {t : RuntimeRegistry C R Res E} (disposed : t.disposed = s.disposed)
        (moved : Move shares s { t with entries := s.entries.delete id }) :
        ∃ m : OrderedMap ConversationId (RegistryEntry R Res),
          Moves shares s { (rest.map Prod.snd).foldl disposeEntry t with entries := m, disposed := s.disposed } ∧
          ∀ other held, m.get other = some held → s.entries.get other = some held ∧
            ((other, held) ∈ (id, entry) :: rest → held.isShared = false) := by
      obtain ⟨m, moves, known⟩ := ih (s := { t with entries := s.entries.delete id }) distinct later
      have frame := foldl_disposeEntry (s := t) (rest.map Prod.snd) (s.entries.delete id) t.disposed
      have whole : ({ t with entries := s.entries.delete id } : RuntimeRegistry C R Res E) =
          { t with entries := s.entries.delete id, disposed := t.disposed } := rfl
      rw [whole, frame] at moves
      refine ⟨m, .head moved ?_, fun other held found => ?_⟩
      · rw [← disposed]
        exact moves
      · obtain ⟨before, unshared⟩ := known other held found
        have different : other ≠ id := by
          intro same
          rw [same, OrderedMap.get_delete_self] at before
          cases before
        refine ⟨OrderedMap.get_of_delete before, fun inside => unshared ?_⟩
        rcases List.mem_cons.mp inside with same | inside
        · exact (different (congrArg Prod.fst same)).elim
        · exact inside
    have stays (unshared : entry.isShared = false) : ∃ m : OrderedMap ConversationId (RegistryEntry R Res),
        Moves shares s { (rest.map Prod.snd).foldl disposeEntry s with entries := m, disposed := s.disposed } ∧
        ∀ other held, m.get other = some held → s.entries.get other = some held ∧
          ((other, held) ∈ (id, entry) :: rest → held.isShared = false) := by
      obtain ⟨m, moves, known⟩ := ih distinct fun other inside => there other (List.mem_cons_of_mem _ inside)
      refine ⟨m, moves, fun other held found => ⟨(known other held found).1, fun inside => ?_⟩⟩
      rcases List.mem_cons.mp inside with same | inside
      · exact (Prod.mk.inj same).2 ▸ unshared
      · exact (known other held found).2 inside
    cases entry with
    | live runtime =>
      refine leaves (t := s.destroyRuntime runtime) (by rw [destroyRuntime_eq]) ?_
      have moved : Move shares s ((s.destroyRuntime runtime).deleteEntry id) := .retire id runtime here
      rw [destroyRuntime_eq] at moved ⊢
      exact moved
    | pending k =>
      refine leaves (t := s.invalidatePending k .disposed) (by rw [invalidatePending_eq]) ?_
      have moved : Move shares s ((s.invalidatePending k .disposed).deleteEntry id) := .overtake id k .disposed here
      rw [invalidatePending_eq] at moved ⊢
      exact moved
    | lifecycle _ | deleted _ => exact stays rfl

theorem moves_dispose : Moves shares s s.dispose := by
  unfold dispose
  split
  · exact .refl
  · obtain ⟨m, moves, known⟩ := moves_disposeEntries shares s.entries.entries s.entries.distinct
      fun entry inside => OrderedMap.mem_entries_iff.mp inside
    have idle : ∀ id entry, m.get id = some entry → entry.isShared = false := fun id entry found =>
      (known id entry found).2 (OrderedMap.mem_entries_iff.mpr (known id entry found).1)
    have whole := foldl_disposeEntry (s := s) (s.entries.entries.map Prod.snd) s.entries true
    dsimp only
    rw [show ({ s with disposed := true } : RuntimeRegistry C R Res E) =
      { s with entries := s.entries, disposed := true } from rfl, whole]
    exact moves.tail (.close _ idle)

theorem moves_deliver (i : Nat) : Moves shares s (s.deliver i) := by
  unfold deliver
  split
  · rename_i request k called
    split
    · rename_i origin invalidation outcome found
      have moved : Move shares s _ := .deliver i k request _ outcome called found rfl
      cases outcome with
      | ok runtime => exact .single moved
      | error error =>
        simp only [openedEvents, List.append_nil] at moved
        exact .single moved
    · exact .refl
  · exact .refl

theorem moves_deliverRelease (i : Nat) : Moves shares s (s.deliverRelease i) := by
  unfold deliverRelease
  split
  · split
    · exact .single (.releases _)
    · exact .refl
  · exact .refl

theorem moves_mutate (action : LifecycleAction) (input : CatalogInput C) : Moves shares s (s.mutate action input).1 := by
  unfold mutate
  split
  · exact .refl
  · split
    · exact .refl
    · exact .single (.ask action _)

variable [Conversation.DatePlatform]

theorem moves_stepConstruction {k : Nat} {c : Construction C R E} (found : s.constructions[k]? = some c)
    (action : RegistryStep C R Res E) : Moves shares s (s.stepConstruction k c c.stage action) := by
  have rejected (running : c.stage.isRunning = true) (error : Rejection E) :
      Moves shares s (s.rejectConstruction k c error) := .single (.reject k c error found running)
  generalize at_ : c.stage = stage at rejected ⊢
  unfold stepConstruction
  split
  · exact rejected rfl _
  · dsimp only
    split
    · refine .tail (.single (.note (.found c.request) rfl)) (.reject k c _ found ?_)
      rw [at_]
      rfl
    · exact .single (.load k c _ found at_)
  · split
    · exact rejected rfl _
    · exact .single (.allow k c _ found at_)
  · exact rejected rfl _
  · exact moves_publish _ found at_
  · exact .single (.settle k c _ found at_)
  · exact .refl

theorem moves_stepMutation {m : Nat} {o : Mutation C Res E} (fits : s.entries.size ≤ s.limits.maxEntries)
    (found : s.mutations[m]? = some o) (action : RegistryStep C R Res E) :
    Moves shares s (s.stepMutation m o o.stage action) := by
  have waits (waiting : o.stage.isWaiting = true) (stage : MutationStage Res E) (idle : stage.isExecuting = false)
      (unresolved : stage.result = none) : Moves shares s (s.setMutation m o stage) :=
    .single (.wait m o stage found waiting idle unresolved)
  generalize at_ : o.stage = stage at waits ⊢
  have noted {event : RegistryEvent C R} (plain : event.isPlain = true) : Moves shares s (s.record event) :=
    .single (.note event plain)
  unfold stepMutation
  split
  · exact waits rfl _ rfl rfl
  · dsimp only
    split
    · exact (noted rfl).tail (.wait m o _ found (by rw [at_]; rfl) rfl rfl)
    · exact (noted rfl).tail (.wait m o _ found (by rw [at_]; rfl) rfl rfl)
  · split
    · exact waits rfl _ rfl rfl
    · exact (noted rfl).trans (moves_beginMutation fits found (by rw [at_]; rfl))
  · exact .single (.finish m o _ found at_)
  · exact .single (.fail m o _ found at_)
  · exact .refl

theorem moves_step (fits : s.entries.size ≤ s.limits.maxEntries) (action : RegistryStep C R Res E)
    (may : s.MayShare shares action) : Moves shares s (s.step action) := by
  have constructs (k : Nat) (action : RegistryStep C R Res E) : Moves shares s (s.advance k action) := by
    unfold advance
    split
    · rename_i found
      exact moves_stepConstruction found action
    · exact .refl
  have mutates (m : Nat) (action : RegistryStep C R Res E) : Moves shares s (s.advanceMutation m action) := by
    unfold advanceMutation
    split
    · rename_i found
      exact moves_stepMutation fits found action
    · exact .refl
  cases action with
  | open_ input => exact moves_open input may
  | release conversationId => exact moves_release conversationId
  | mutate action input => exact moves_mutate action input
  | dispose => exact moves_dispose
  | loaded k answer => exact constructs k _
  | decided k answer => exact constructs k _
  | created k answer => exact constructs k _
  | finally_ k => exact constructs k _
  | opened i => exact moves_deliver i
  | released i => exact moves_deliverRelease i
  | mutationLoaded m answer => exact mutates m _
  | mutationDecided m answer => exact mutates m _
  | executed m answer => exact mutates m _

end RuntimeRegistry

end Handrail.Registry

import Handrail.Registry.Moves

/-!
# What the registry owns

The pending entries name the constructions that nothing has overtaken, and the entries of lifecycle operations name the
mutations that execute. A runtime is in the live entry of its conversation until it is destroyed.
-/

namespace Handrail.Registry
open Js Catalog Concurrent

variable {C R Res E : Type}

def Construction.openAt (c : Construction C R E) : Option ConversationId :=
  if c.stage.isRunning = true ∧ c.invalidation = none then some c.request.conversationId else none

def Mutation.openAt (disposed : Bool) (o : Mutation C Res E) : Option ConversationId :=
  if disposed = false ∧ o.stage.isExecuting = true then some o.request.conversationId else none

namespace RuntimeRegistry
variable {s t : RuntimeRegistry C R Res E} {id : ConversationId} {k m : Nat}

def named (names : RegistryEntry R Res → Option Nat) (s : RuntimeRegistry C R Res E) (id : ConversationId) : Option Nat :=
  (s.entries.get id).bind names

/-- The entries against the constructions, the mutations and the calls of `open`. -/
structure Owned (s : RuntimeRegistry C R Res E) : Prop where
  pending : Names (s.named (·.construction)) s.constructions Construction.openAt
  gates : Names (s.named (·.mutation)) s.mutations (Mutation.openAt s.disposed)
  overtaken : ∀ (k : Nat) (c : Construction C R E), s.constructions[k]? = some c → c.invalidation ≠ none →
    ∀ runtime, c.stage.outcome ≠ some (.ok runtime)
  deleted : ∀ (m : Nat) (o : Mutation C Res E), s.mutations[m]? = some o → o.action = .permanentDelete →
    o.stage.result ≠ none → s.disposed = false → ∃ result, s.entries.get o.request.conversationId = some (.deleted result)
  empty : s.disposed = true → ∀ id, s.entries.get id = none
  opens : ∀ (i : Nat) (o : OpenCall C R E), s.opens[i]? = some o → ∃ c, s.constructions[o.construction]? = some c ∧
    c.request.conversationId = o.request.conversationId ∧ ∀ outcome, o.outcome = some outcome → c.stage = .settled outcome

/-! ### Entries that change -/

theorem named_setEntry (names : RegistryEntry R Res → Option Nat) (id : ConversationId) (entry : RegistryEntry R Res) :
    (s.setEntry id entry).named names = Function.update (s.named names) id (names entry) := by
  funext other
  rw [named, setEntry, OrderedMap.get_set]
  by_cases same : other = id
  · rw [same, Function.update_self, Function.update_self]
    rfl
  · rw [Function.update_of_ne same, Function.update_of_ne same]
    rfl

theorem named_deleteEntry (names : RegistryEntry R Res → Option Nat) (id : ConversationId) :
    (s.deleteEntry id).named names = Function.update (s.named names) id none := by
  funext other
  rw [named, deleteEntry, OrderedMap.get_delete]
  by_cases same : other = id
  · rw [same, Function.update_self, Function.update_self]
    rfl
  · rw [Function.update_of_ne same, Function.update_of_ne same]
    rfl

theorem named_none (names : RegistryEntry R Res → Option Nat) {entry : Option (RegistryEntry R Res)}
    (held : s.entries.get id = entry)
    (other : entry.bind names = none) : Function.update (s.named names) id none = s.named names := by
  rw [Function.update_eq_self_iff, named, held, other]

theorem named_construction_iff : s.named (·.construction) id = some k ↔ s.entries.get id = some (.pending k) := by
  rw [← isPending_iff, isPending, beq_iff_eq]
  rfl

theorem named_mutation_iff : s.named (·.mutation) id = some m ↔ s.entries.get id = some (.lifecycle m) := by
  rw [← isLifecycle_iff, isLifecycle, beq_iff_eq]
  rfl

theorem Owned.running (owned : s.Owned) {c : Construction C R E} (pending : s.entries.get id = some (.pending k))
    (found : s.constructions[k]? = some c) :
    c.request.conversationId = id ∧ c.stage.isRunning = true ∧ c.invalidation = none := by
  have opened := owned.pending.openAt_eq found (named_construction_iff.mpr pending)
  unfold Construction.openAt at opened
  split at opened
  · rename_i running
    exact ⟨Option.some.inj opened, running⟩
  · cases opened

theorem openAt_of_over {c : Construction C R E} (spent : c.stage.isRunning = false) : c.openAt = none := by
  unfold Construction.openAt
  rw [if_neg]
  rintro ⟨running, -⟩
  rw [spent] at running
  cases running

theorem openAt_of_idle {o : Mutation C Res E} {disposed : Bool} (idle : o.stage.isExecuting = false) :
    o.openAt disposed = none := by
  unfold Mutation.openAt
  rw [if_neg]
  rintro ⟨-, executing⟩
  rw [idle] at executing
  cases executing

theorem idle_of_waiting {stage : MutationStage Res E} (waiting : stage.isWaiting = true) : stage.isExecuting = false := by
  cases stage with
  | executing => cases waiting
  | loading | deciding _ | settled _ => rfl

theorem Owned.executing (owned : s.Owned) {o : Mutation C Res E} (found : s.mutations[m]? = some o)
    (executing : o.stage.isExecuting = true) (usable : s.disposed = false) :
    s.entries.get o.request.conversationId = some (.lifecycle m) :=
  named_mutation_iff.mp (owned.gates.named found (if_pos ⟨usable, executing⟩))

theorem gates_end (owned : s.Owned) {o : Mutation C Res E} {stage : MutationStage Res E} {entries : OrderedMap ConversationId
    (RegistryEntry R Res)} (found : s.mutations[m]? = some o)
    (spent : stage.isExecuting = false)
    (given : s.entries.get o.request.conversationId = some (.lifecycle m) →
      (fun id => (entries.get id).bind (·.mutation)) = Function.update (s.named (·.mutation)) o.request.conversationId none)
    (kept : s.entries.get o.request.conversationId ≠ some (.lifecycle m) → entries = s.entries) :
    Names (fun id => (entries.get id).bind (·.mutation)) (s.mutations.set m { o with stage })
      (Mutation.openAt s.disposed) := by
  by_cases own : s.entries.get o.request.conversationId = some (.lifecycle m)
  · have opened := owned.gates.openAt_eq found (named_mutation_iff.mpr own)
    exact (owned.gates.closes found opened (openAt_of_idle spent)).congr (given own)
  · have closed : o.openAt s.disposed = none := by
      unfold Mutation.openAt
      rw [if_neg]
      rintro ⟨usable, running⟩
      exact own (owned.executing found running usable)
    rw [kept own]
    exact owned.gates.keep found ((openAt_of_idle spent).trans closed.symm)

variable [DecidableEq R] {shares : RuntimeRegistry C R Res E → GetSnapshot C → Prop}

/-! ### One field after another -/

theorem pending_move (owned : s.Owned) (move : Move shares s t) :
    Names (t.named (·.construction)) t.constructions Construction.openAt := by
  cases move with
  | order entries same size =>
    have equal : ({ s with entries } : RuntimeRegistry C R Res E).named (·.construction) = s.named (·.construction) := by
      funext id
      exact congrArg (Option.bind · _) (congrFun same id)
    rw [equal]
    exact owned.pending
  | note | share | join | deliver | releases | ask | wait => exact owned.pending
  | begin request usable free room few =>
    have before : s.named (·.construction) request.conversationId = none := by rw [named, free]; rfl
    have entries := named_setEntry (s := s) (·.construction) request.conversationId (.pending s.constructions.length)
    exact (owned.pending.append_open (if_pos ⟨rfl, rfl⟩) before).congr entries
  | load k c descriptor found loading =>
    refine owned.pending.keep found ?_
    rw [Construction.openAt, Construction.openAt, loading]
    rfl
  | allow k c descriptor found deciding =>
    refine owned.pending.keep found ?_
    rw [Construction.openAt, Construction.openAt, deciding]
    rfl
  | reject k c error found running =>
    unfold rejectConstruction
    split
    · rename_i own
      have opened := owned.pending.openAt_eq found (named_construction_iff.mpr (isPending_iff.mp own))
      have entries := named_deleteEntry (s := s) (·.construction) c.request.conversationId
      exact (owned.pending.closes found opened (openAt_of_over rfl)).congr entries
    · rename_i stale
      refine owned.pending.keep found ((openAt_of_over rfl).trans ?_)
      unfold Construction.openAt
      rw [if_neg]
      rintro ⟨_, current⟩
      refine stale (isPending_iff.mpr (named_construction_iff.mp (owned.pending.named found ?_)))
      exact if_pos ⟨running, current⟩
  | publish k c descriptor runtime found creating usable own =>
    have opened := owned.pending.openAt_eq found (named_construction_iff.mpr own)
    have entries := named_setEntry (s := s) (·.construction) c.request.conversationId (.live runtime)
    exact (owned.pending.closes found opened (openAt_of_over rfl)).congr entries
  | discard id runtime =>
    rw [destroyRuntime_eq]
    exact owned.pending
  | settle k c outcome found returned =>
    refine owned.pending.keep found ((openAt_of_over rfl).trans (Eq.symm ?_))
    exact openAt_of_over (by rw [returned]; rfl)
  | retire id runtime live =>
    rw [destroyRuntime_eq]
    have entries := named_deleteEntry (s := s) (·.construction) id
    exact owned.pending.congr (entries.trans (named_none _ live rfl))
  | overtake id k code pending =>
    obtain ⟨c, found, opened⟩ := (owned.pending id k).mp (named_construction_iff.mpr pending)
    have entries := named_deleteEntry (s := s) (·.construction) id
    rw [invalidatePending_eq]
    have modified : s.constructions.modify k (fun c => { c with invalidation := c.invalidation.or (some code) }) =
        s.constructions.set k { c with invalidation := c.invalidation.or (some code) } := by
      rw [List.modify_eq_set_getElem?, found]
      rfl
    rw [modified]
    refine (owned.pending.closes found opened ?_).congr entries
    unfold Construction.openAt
    rw [if_neg]
    rintro ⟨-, none⟩
    rcases before : c.invalidation <;> simp [before] at none
  | gate m o found waiting usable free room =>
    have entries := named_setEntry (s := s) (·.construction) o.request.conversationId (.lifecycle m)
    exact owned.pending.congr (entries.trans (named_none _ free rfl))
  | finish m o result found executing =>
    unfold finishMutation
    split
    · rename_i own
      have held := isLifecycle_iff.mp own
      split
      · have entries := named_setEntry (s := s) (·.construction) o.request.conversationId (.deleted result)
        exact owned.pending.congr (entries.trans (named_none _ held rfl))
      · have entries := named_deleteEntry (s := s) (·.construction) o.request.conversationId
        exact owned.pending.congr (entries.trans (named_none _ held rfl))
    · exact owned.pending
  | fail m o error found executing =>
    unfold failMutation
    split
    · rename_i own
      have entries := named_deleteEntry (s := s) (·.construction) o.request.conversationId
      exact owned.pending.congr (entries.trans (named_none _ (isLifecycle_iff.mp own) rfl))
    · exact owned.pending
  | close pending idle =>
    refine owned.pending.congr ?_
    funext id
    symm
    rw [named]
    cases held : s.entries.get id with
    | none => rfl
    | some entry =>
      have unshared := idle id entry held
      cases entry with
      | pending _ | live _ => cases unshared
      | lifecycle _ | deleted _ => rfl

theorem gates_move (owned : s.Owned) (move : Move shares s t) :
    Names (t.named (·.mutation)) t.mutations (Mutation.openAt t.disposed) := by
  cases move with
  | order entries same size =>
    have equal : ({ s with entries } : RuntimeRegistry C R Res E).named (·.mutation) = s.named (·.mutation) := by
      funext id
      exact congrArg (Option.bind · _) (congrFun same id)
    rw [equal]
    exact owned.gates
  | note | share | join | load | allow | settle | deliver | releases => exact owned.gates
  | begin request usable free room few =>
    have entries := named_setEntry (s := s) (·.mutation) request.conversationId (.pending s.constructions.length)
    exact owned.gates.congr (entries.trans (named_none _ free rfl))
  | reject k c error found running =>
    unfold rejectConstruction
    split
    · rename_i own
      have entries := named_deleteEntry (s := s) (·.mutation) c.request.conversationId
      exact owned.gates.congr (entries.trans (named_none _ (isPending_iff.mp own) rfl))
    · exact owned.gates
  | publish k c descriptor runtime found creating usable own =>
    have entries := named_setEntry (s := s) (·.mutation) c.request.conversationId (.live runtime)
    exact owned.gates.congr (entries.trans (named_none _ own rfl))
  | discard id runtime =>
    rw [destroyRuntime_eq]
    exact owned.gates
  | retire id runtime live =>
    rw [destroyRuntime_eq]
    have entries := named_deleteEntry (s := s) (·.mutation) id
    exact owned.gates.congr (entries.trans (named_none _ live rfl))
  | overtake id k code pending =>
    rw [invalidatePending_eq]
    have entries := named_deleteEntry (s := s) (·.mutation) id
    exact owned.gates.congr (entries.trans (named_none _ pending rfl))
  | ask action request => exact owned.gates.append_closed (openAt_of_idle rfl)
  | wait m o stage found waiting idle unresolved =>
    refine owned.gates.keep found ((openAt_of_idle idle).trans ?_)
    exact (openAt_of_idle (idle_of_waiting waiting)).symm
  | gate m o found waiting usable free room =>
    have before : s.named (·.mutation) o.request.conversationId = none := by rw [named, free]; rfl
    have entries := named_setEntry (s := s) (·.mutation) o.request.conversationId (.lifecycle m)
    have closed : o.openAt s.disposed = none := openAt_of_idle (idle_of_waiting waiting)
    have opened : ({ o with stage := .executing } : Mutation C Res E).openAt s.disposed = some o.request.conversationId :=
      if_pos ⟨usable, rfl⟩
    exact (owned.gates.opens found closed opened before).congr entries
  | finish m o result found executing =>
    unfold finishMutation
    split
    · rename_i own
      have held := isLifecycle_iff.mp own
      split
      · exact gates_end owned found rfl
          (fun _ => named_setEntry (s := s) (·.mutation) o.request.conversationId (.deleted result))
          fun other => (other held).elim
      · exact gates_end owned found rfl
          (fun _ => named_deleteEntry (s := s) (·.mutation) o.request.conversationId) fun other => (other held).elim
    · rename_i stale
      exact gates_end owned found rfl (fun own => (stale (isLifecycle_iff.mpr own)).elim) fun _ => rfl
  | fail m o error found executing =>
    unfold failMutation
    split
    · rename_i own
      exact gates_end owned found rfl
        (fun _ => named_deleteEntry (s := s) (·.mutation) o.request.conversationId)
        fun other => (other (isLifecycle_iff.mp own)).elim
    · rename_i stale
      exact gates_end owned found rfl (fun own => (stale (isLifecycle_iff.mpr own)).elim) fun _ => rfl
  | close pending idle =>
    intro id m
    constructor
    · intro held
      cases held
    · rintro ⟨o, -, opened⟩
      unfold Mutation.openAt at opened
      rw [if_neg (by simp)] at opened
      cases opened

theorem overtaken_move (owned : s.Owned) (move : Move shares s t) (j : Nat) (d : Construction C R E)
    (held : t.constructions[j]? = some d) (invalid : d.invalidation ≠ none) (made : R) :
    d.stage.outcome ≠ some (.ok made) := by
  have stays {k : Nat} {c : Construction C R E} {stage : ConstructionStage R E} (found : s.constructions[k]? = some c)
      (held : (s.constructions.set k { c with stage })[j]? = some d)
      (unmade : c.invalidation ≠ none → stage.outcome ≠ some (.ok made)) : d.stage.outcome ≠ some (.ok made) := by
    rw [getElem?_set_found found] at held
    split at held
    · obtain rfl := Option.some.inj held
      exact unmade invalid
    · exact owned.overtaken j d held invalid made
  cases move with
  | order | note | share | join | deliver | releases | ask | wait | gate | close =>
    exact owned.overtaken j d held invalid made
  | begin request usable free room few =>
    rcases getElem?_concat_cases held with before | ⟨-, rfl⟩
    · exact owned.overtaken j d before invalid made
    · exact (invalid rfl).elim
  | load k c descriptor found loading => exact stays found held fun _ => by simp [ConstructionStage.outcome]
  | allow k c descriptor found deciding => exact stays found held fun _ => by simp [ConstructionStage.outcome]
  | reject k c error found running =>
    unfold rejectConstruction at held
    split at held <;> exact stays found held fun _ => by simp [ConstructionStage.outcome]
  | publish k c descriptor runtime found creating usable own =>
    obtain ⟨-, -, current⟩ := owned.running own found
    exact stays found held fun stale => (stale current).elim
  | discard id runtime =>
    rw [destroyRuntime_eq] at held
    exact owned.overtaken j d held invalid made
  | settle k c outcome found returned =>
    have before := owned.overtaken k c found
    rw [returned] at before
    exact stays found held fun stale => before stale made
  | retire id runtime live =>
    rw [destroyRuntime_eq] at held
    exact owned.overtaken j d held invalid made
  | overtake id k code pending =>
    rw [invalidatePending_eq] at held
    change (s.constructions.modify k _)[j]? = some d at held
    rw [List.getElem?_modify] at held
    obtain ⟨c, found, rfl⟩ := Option.map_eq_some_iff.mp held
    by_cases here : k = j
    · subst here
      obtain ⟨-, running, -⟩ := owned.running pending found
      rw [if_pos rfl]
      cases at_ : c.stage with
      | loading | deciding _ | creating _ => simp [ConstructionStage.outcome]
      | returned _ | settled _ =>
        rw [at_] at running
        cases running
    · rw [if_neg here] at invalid ⊢
      exact owned.overtaken j c found invalid made
  | finish m o result found executing =>
    unfold finishMutation at held
    split at held
    · split at held <;> exact owned.overtaken j d held invalid made
    · exact owned.overtaken j d held invalid made
  | fail m o error found executing =>
    unfold failMutation at held
    split at held <;> exact owned.overtaken j d held invalid made

theorem empty_move (owned : s.Owned) (move : Move shares s t) (disposed : t.disposed = true) (id : ConversationId) :
    t.entries.get id = none := by
  have usable {P : Prop} (open_ : s.disposed = false) (closed : s.disposed = true) : P := by
    rw [open_] at closed
    cases closed
  have deleted (other : ConversationId) (closed : s.disposed = true) : (s.entries.delete other).get id = none := by
    rw [OrderedMap.get_delete]
    by_cases same : id = other
    · rw [same, Function.update_self]
    · rw [Function.update_of_ne same]
      exact owned.empty closed id
  cases move with
  | order entries same size =>
    change entries.get id = none
    rw [same]
    exact owned.empty disposed id
  | note | share | join | load | allow | settle | deliver | releases | ask | wait => exact owned.empty disposed id
  | begin request open_ free room few => exact usable open_ disposed
  | reject k c error found running =>
    unfold rejectConstruction at disposed ⊢
    split at disposed
    · rename_i own
      rw [if_pos own]
      exact deleted _ disposed
    · rename_i stale
      rw [if_neg stale]
      exact owned.empty disposed id
  | publish k c descriptor runtime found creating open_ own => exact usable open_ disposed
  | discard other runtime =>
    rw [destroyRuntime_eq] at disposed ⊢
    exact owned.empty disposed id
  | retire other runtime live =>
    rw [destroyRuntime_eq] at disposed ⊢
    exact deleted other disposed
  | overtake other k code pending =>
    rw [invalidatePending_eq] at disposed ⊢
    exact deleted other disposed
  | gate m o found waiting open_ free room => exact usable open_ disposed
  | finish m o result found executing =>
    unfold finishMutation at disposed ⊢
    split
    · rename_i own
      have held := isLifecycle_iff.mp own
      have closed : s.disposed = true := by
        rw [if_pos own] at disposed
        split at disposed <;> exact disposed
      rw [owned.empty closed] at held
      cases held
    · rename_i stale
      rw [if_neg stale] at disposed
      exact owned.empty disposed id
  | fail m o error found executing =>
    unfold failMutation at disposed ⊢
    split
    · rename_i own
      rw [if_pos own] at disposed
      exact deleted _ disposed
    · rename_i stale
      rw [if_neg stale] at disposed
      exact owned.empty disposed id
  | close pending idle => rfl

theorem deleted_move (owned : s.Owned) (move : Move shares s t) (j : Nat) (p : Mutation C Res E)
    (held : t.mutations[j]? = some p) (removal : p.action = .permanentDelete) (done : p.stage.result ≠ none)
    (usable : t.disposed = false) : ∃ result, t.entries.get p.request.conversationId = some (.deleted result) := by
  -- An entry of another kind changes.
  have kept {id : ConversationId} {entry : Option (RegistryEntry R Res)}
      {entries : OrderedMap ConversationId (RegistryEntry R Res)} (changed : entries.get = Function.update s.entries.get id entry)
      (other : ∀ result, s.entries.get id ≠ some (.deleted result)) (open_ : s.disposed = false)
      (before : s.mutations[j]? = some p) : ∃ result, entries.get p.request.conversationId = some (.deleted result) := by
    obtain ⟨result, stands⟩ := owned.deleted j p before removal done open_
    have different : p.request.conversationId ≠ id := fun same => other result (same ▸ stands)
    exact ⟨result, by rw [changed, Function.update_of_ne different, stands]⟩
  -- A mutation that has not resolved moves on, and does not resolve.
  have unresolved {m : Nat} {o : Mutation C Res E} {stage : MutationStage Res E} (found : s.mutations[m]? = some o)
      (held : (s.mutations.set m { o with stage })[j]? = some p) (none : stage.result = none) : s.mutations[j]? = some p := by
    rw [getElem?_set_found found] at held
    split at held
    · obtain rfl := Option.some.inj held
      exact (done none).elim
    · exact held
  cases move with
  | order entries same size =>
    change ∃ result, entries.get p.request.conversationId = _
    rw [same]
    exact owned.deleted j p held removal done usable
  | note | share | join | load | allow | settle | deliver | releases => exact owned.deleted j p held removal done usable
  | begin request open_ free room few =>
    exact kept (OrderedMap.get_set ..) (fun result => by rw [free]; simp) open_ held
  | reject k c error found running =>
    unfold rejectConstruction at held usable ⊢
    split
    · rename_i own
      rw [if_pos own] at held usable
      exact kept (OrderedMap.get_delete ..) (fun result => by rw [isPending_iff.mp own]; simp) usable held
    · rename_i stale
      rw [if_neg stale] at held usable
      exact owned.deleted j p held removal done usable
  | publish k c descriptor runtime found creating open_ own =>
    exact kept (OrderedMap.get_set ..) (fun result => by rw [own]; simp) open_ held
  | discard id runtime =>
    rw [destroyRuntime_eq] at held usable ⊢
    exact owned.deleted j p held removal done usable
  | retire id runtime live =>
    rw [destroyRuntime_eq] at held usable ⊢
    exact kept (OrderedMap.get_delete ..) (fun result => by rw [live]; simp) usable held
  | overtake id k code pending =>
    rw [invalidatePending_eq] at held usable ⊢
    exact kept (OrderedMap.get_delete ..) (fun result => by rw [pending]; simp) usable held
  | ask action request =>
    rcases getElem?_concat_cases held with before | ⟨-, rfl⟩
    · exact owned.deleted j p before removal done usable
    · exact (done rfl).elim
  | wait m o stage found waiting idle none => exact owned.deleted j p (unresolved found held none) removal done usable
  | gate m o found waiting open_ free room =>
    exact kept (OrderedMap.get_set ..) (fun result => by rw [free]; simp) open_ (unresolved found held rfl)
  | fail m o error found executing =>
    unfold failMutation at held usable ⊢
    split
    · rename_i own
      rw [if_pos own] at held usable
      exact kept (OrderedMap.get_delete ..) (fun result => by rw [isLifecycle_iff.mp own]; simp) usable
        (unresolved found held rfl)
    · rename_i stale
      rw [if_neg stale] at held usable
      exact owned.deleted j p (unresolved found held rfl) removal done usable
  | finish m o result found executing =>
    have open_ : s.disposed = false := by
      unfold finishMutation at usable
      split at usable
      · split at usable <;> exact usable
      · exact usable
    have held : (s.mutations.set m { o with stage := .settled (.ok result) })[j]? = some p := by
      unfold finishMutation at held
      split at held
      · split at held <;> exact held
      · exact held
    have own : s.isLifecycle o.request.conversationId m = true :=
      isLifecycle_iff.mpr (owned.executing found (by rw [executing]; rfl) open_)
    unfold finishMutation
    rw [if_pos own]
    rw [getElem?_set_found found] at held
    have other : ∀ result, s.entries.get o.request.conversationId ≠ some (.deleted result) := by
      intro result
      rw [isLifecycle_iff.mp own]
      simp
    by_cases here : m = j
    · rw [if_pos here] at held
      obtain rfl := Option.some.inj held
      rw [if_pos ⟨open_, removal⟩]
      exact ⟨result, OrderedMap.get_set_self ..⟩
    · rw [if_neg here] at held
      split
      · exact kept (OrderedMap.get_set ..) other open_ held
      · exact kept (OrderedMap.get_delete ..) other open_ held
  | close pending idle => cases usable

end RuntimeRegistry

end Handrail.Registry

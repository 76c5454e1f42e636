import Handrail.Catalog.Runs
import Handrail.Registry.Lifetimes

/-!
# Overtaken constructions and deleted conversations

What stays as it is whatever happens later: a construction that was overtaken hands out nothing, and of a conversation that
was permanently deleted nothing is opened any more, except what had been made before.
-/

namespace Handrail.Registry
open Js Catalog Concurrent

variable {C R Res E : Type}

namespace RuntimeRegistry
variable {s t : RuntimeRegistry C R Res E} {id : ConversationId}

def Delivers (s : RuntimeRegistry C R Res E) (request : GetSnapshot C) (runtime : R) : Prop :=
  ∃ (i k : Nat) (c : Construction C R E), s.opens[i]? = some ⟨request, k, none⟩ ∧ s.constructions[k]? = some c ∧
    c.stage = .settled (.ok runtime)

def Deleted (s : RuntimeRegistry C R Res E) (id : ConversationId) : Prop :=
  ∃ (m : Nat) (o : Mutation C Res E) (result : Res), s.mutations[m]? = some o ∧ o.action = .permanentDelete ∧
    o.request.conversationId = id ∧ o.stage = .settled (.ok result)

theorem Owned.deleted_entry (owned : s.Owned) (deleted : s.Deleted id) :
    (∃ result, s.entries.get id = some (.deleted result)) ∨ (s.disposed = true ∧ s.entries.get id = none) := by
  obtain ⟨m, o, result, found, removal, rfl, settled⟩ := deleted
  cases at_ : s.disposed with
  | false => exact .inl (owned.deleted m o found removal (by rw [settled]; simp [MutationStage.result]) at_)
  | true => exact .inr ⟨rfl, owned.empty at_ _⟩

theorem Owned.not_shared (owned : s.Owned) (deleted : s.Deleted id) {entry : RegistryEntry R Res}
    (held : s.entries.get id = some entry) : entry.isShared = false := by
  rcases owned.deleted_entry deleted with ⟨result, stands⟩ | ⟨-, none⟩
  · rw [stands] at held
    obtain rfl := Option.some.inj held
    rfl
  · rw [none] at held
    cases held

/-- The construction goes on although its entry is gone: a `release`, a lifecycle mutation or `dispose` took it. -/
def Overtaken (s : RuntimeRegistry C R Res E) (k : Nat) (c : Construction C R E) : Prop :=
  c.stage.isRunning = true ∧ s.entries.get c.request.conversationId ≠ some (.pending k)

/-- How often `destroy` was called of each runtime. -/
def destroys (s : RuntimeRegistry C R Res E) : List R := s.history.filterMap RegistryEvent.destroyedRuntime

theorem mem_destroys (accounted : s.Accounted) {runtime : R} : runtime ∈ s.destroys ↔ runtime ∈ s.destroyedRuntimes := by
  rw [destroys, accounted.destroyed, List.mem_reverse]

variable {c : Construction C R E}

theorem Owned.stale_of_overtaken (owned : s.Owned) {k : Nat} (found : s.constructions[k]? = some c)
    (overtaken : s.Overtaken k c) : c.invalidation ≠ none := by
  intro current
  have opened : c.openAt = some c.request.conversationId := if_pos ⟨overtaken.1, current⟩
  exact overtaken.2 (named_construction_iff.mp (owned.pending.named found opened))

theorem Owned.not_pending (owned : s.Owned) {k : Nat} (found : s.constructions[k]? = some c)
    (stale : c.invalidation ≠ none) (id : ConversationId) : s.entries.get id ≠ some (.pending k) := fun pending =>
  stale (owned.running pending found).2.2

theorem rejectConstruction_stage {k : Nat} (found : s.constructions[k]? = some c)
    (error : Rejection E) :
    (s.rejectConstruction k c error).constructions[k]? = some { c with stage := .returned (.error error) } := by
  have set : (s.rejectConstruction k c error).constructions =
      s.constructions.set k { c with stage := .returned (.error error) } := by
    unfold rejectConstruction
    split <;> rfl
  rw [set, getElem?_set_found found, if_pos rfl]

/-! ### What one move adds -/

variable [DecidableEq R] {shares : RuntimeRegistry C R Res E → GetSnapshot C → Prop}

theorem history_destroyRuntime (runtime : R) : ∃ events, (s.destroyRuntime runtime).history = s.history ++ events ∧
    ∀ event ∈ events, event = .destroyed runtime := by
  unfold destroyRuntime
  split
  · exact ⟨[], (List.append_nil _).symm, fun event member => absurd member List.not_mem_nil⟩
  · exact ⟨_, rfl, fun event member => List.mem_singleton.mp member⟩

/-- An open resolves with the runtime of a live entry or with that of its construction. -/
theorem history_move (move : Move shares s t) : ∃ new, t.history = s.history ++ new ∧
    ∀ request runtime, RegistryEvent.opened request runtime ∈ new →
      (s.entries.get request.conversationId = some (.live runtime) ∧ shares s request) ∨
      s.Delivers request runtime := by
  have nothing {t : RuntimeRegistry C R Res E} (events : List (RegistryEvent C R)) (history : t.history = s.history ++ events)
      (plain : ∀ request runtime, RegistryEvent.opened request runtime ∉ events) :
      ∃ new, t.history = s.history ++ new ∧ ∀ request runtime, RegistryEvent.opened request runtime ∈ new →
        (s.entries.get request.conversationId = some (.live runtime) ∧ shares s request) ∨
        s.Delivers request runtime :=
    ⟨events, history, fun request runtime opened => (plain request runtime opened).elim⟩
  have same {t : RuntimeRegistry C R Res E} (history : t.history = s.history) := nothing (t := t) []
    (history.trans (List.append_nil _).symm) fun _ _ => List.not_mem_nil
  cases move with
  | order | join | begin | settle | releases | ask | wait | gate | close => exact same rfl
  | note event plain =>
    refine nothing _ rfl fun request runtime opened => ?_
    rw [← List.mem_singleton.mp opened] at plain
    cases plain
  | share request runtime live shared =>
    refine ⟨_, rfl, fun other made opened => ?_⟩
    obtain ⟨rfl, rfl⟩ := RegistryEvent.opened.inj (List.mem_singleton.mp opened)
    exact .inl ⟨live, shared⟩
  | load | allow | publish => exact nothing _ rfl fun request runtime opened => by cases List.mem_singleton.mp opened
  | reject k c error found running =>
    unfold rejectConstruction
    split <;> exact same rfl
  | discard other made =>
    obtain ⟨events, more, only⟩ := history_destroyRuntime (s := s.record (.created other made)) made
    refine nothing _ (more.trans (List.append_assoc ..)) fun request runtime opened => ?_
    rcases List.mem_cons.mp opened with same | destroyed
    · cases same
    · cases only _ destroyed
  | deliver i k request c outcome called found settled =>
    refine ⟨_, rfl, fun other made opened => ?_⟩
    cases outcome with
    | error _ => cases opened
    | ok runtime =>
      obtain ⟨rfl, rfl⟩ := RegistryEvent.opened.inj (List.mem_singleton.mp opened)
      exact .inr ⟨i, k, c, called, found, settled⟩
  | retire other made live =>
    obtain ⟨events, more, only⟩ := history_destroyRuntime (s := s) made
    exact nothing _ more fun request runtime opened => by cases only _ opened
  | overtake other k code pending =>
    rw [invalidatePending_eq]
    exact same rfl
  | finish m o result found executing =>
    unfold finishMutation
    split
    · split <;> exact same rfl
    · exact same rfl
  | fail m o error found executing =>
    unfold failMutation
    split <;> exact same rfl

theorem made_move (move : Move shares s t) {k : Nat} {d : Construction C R E} {runtime : R}
    (held : t.constructions[k]? = some d) (made : d.stage.outcome = some (.ok runtime)) :
    (∃ c, s.constructions[k]? = some c ∧ c.request = d.request ∧ c.stage.outcome = some (.ok runtime)) ∨
      (s.entries.get d.request.conversationId = some (.pending k) ∧
        ∃ c descriptor, s.constructions[k]? = some c ∧ c.request = d.request ∧ c.stage = .creating descriptor) := by
  have sets {j : Nat} {c : Construction C R E} {stage : ConstructionStage R E} (found : s.constructions[j]? = some c)
      (stands : (s.constructions.set j { c with stage })[k]? = some d)
      (before : stage.outcome = some (.ok runtime) →
        c.stage.outcome = some (.ok runtime) ∨ (s.entries.get c.request.conversationId = some (.pending j) ∧
          ∃ descriptor, c.stage = .creating descriptor)) :
      (∃ c, s.constructions[k]? = some c ∧ c.request = d.request ∧ c.stage.outcome = some (.ok runtime)) ∨
        (s.entries.get d.request.conversationId = some (.pending k) ∧
          ∃ c descriptor, s.constructions[k]? = some c ∧ c.request = d.request ∧ c.stage = .creating descriptor) := by
    rw [getElem?_set_found found] at stands
    split at stands
    · rename_i here
      subst here
      obtain rfl := Option.some.inj stands
      rcases before made with earlier | ⟨own, descriptor, creating⟩
      · exact .inl ⟨c, found, rfl, earlier⟩
      · exact .inr ⟨own, c, descriptor, found, rfl, creating⟩
    · exact .inl ⟨d, stands, rfl, made⟩
  have same (held : s.constructions[k]? = some d) : (∃ c, s.constructions[k]? = some c ∧ c.request = d.request ∧
      c.stage.outcome = some (.ok runtime)) ∨ (s.entries.get d.request.conversationId = some (.pending k) ∧
        ∃ c descriptor, s.constructions[k]? = some c ∧ c.request = d.request ∧ c.stage = .creating descriptor) :=
    .inl ⟨d, held, rfl, made⟩
  cases move with
  | order | note | share | join | deliver | releases | ask | wait | gate | close => exact same held
  | begin request usable free room few =>
    rcases getElem?_concat_cases held with before | ⟨-, rfl⟩
    · exact same before
    · cases made
  | load k c descriptor found loading => exact sets found held fun none => by cases none
  | allow k c descriptor found deciding => exact sets found held fun none => by cases none
  | reject k c error found running =>
    unfold rejectConstruction at held
    split at held <;> exact sets found held fun none => by cases none
  | publish k c descriptor runtime found creating usable own =>
    exact sets found held fun _ => .inr ⟨own, descriptor, creating⟩
  | discard other made =>
    rw [destroyRuntime_eq] at held
    exact same held
  | settle k c outcome found returned =>
    refine sets found held fun after => .inl ?_
    rw [returned]
    exact after
  | retire other made live =>
    rw [destroyRuntime_eq] at held
    exact same held
  | overtake other j code pending =>
    rw [invalidatePending_eq] at held
    change (s.constructions.modify j _)[k]? = some d at held
    rw [List.getElem?_modify] at held
    obtain ⟨c, found, rfl⟩ := Option.map_eq_some_iff.mp held
    refine .inl ⟨c, found, ?_, ?_⟩
    · split <;> rfl
    · split at made <;> exact made
  | finish m o result found executing =>
    unfold finishMutation at held
    split at held
    · split at held <;> exact same held
    · exact same held
  | fail m o error found executing =>
    unfold failMutation at held
    split at held <;> exact same held

/-- A call of `open` awaits a construction when its conversation is not there or pending. -/
theorem awaits_move (move : Move shares s t) {i : Nat} {o : OpenCall C R E} (held : t.opens[i]? = some o) :
    (∃ before, s.opens[i]? = some before ∧ before.request = o.request ∧ before.construction = o.construction ∧
      (o.outcome = none → before.outcome = none)) ∨
    (s.disposed = false ∧ s.entries.get o.request.conversationId = none) ∨
    s.entries.get o.request.conversationId = some (.pending o.construction) := by
  have same (held : s.opens[i]? = some o) : ∃ before, s.opens[i]? = some before ∧ before.request = o.request ∧
      before.construction = o.construction ∧ (o.outcome = none → before.outcome = none) := ⟨o, held, rfl, rfl, fun a => a⟩
  cases move with
  | order | note | share | load | allow | publish | settle | releases | ask | wait | gate | close => exact .inl (same held)
  | join request k pending shared =>
    rcases getElem?_concat_cases held with before | ⟨-, rfl⟩
    · exact .inl (same before)
    · exact .inr (.inr pending)
  | begin request usable free room few =>
    rcases getElem?_concat_cases held with before | ⟨-, rfl⟩
    · exact .inl (same before)
    · exact .inr (.inl ⟨usable, free⟩)
  | reject k c error found running =>
    unfold rejectConstruction at held
    split at held <;> exact .inl (same held)
  | discard other made =>
    rw [destroyRuntime_eq] at held
    exact .inl (same held)
  | deliver j k request c outcome called found settled =>
    rw [getElem?_set_found called] at held
    split at held
    · rename_i here
      subst here
      obtain rfl := Option.some.inj held
      exact .inl ⟨_, called, rfl, rfl, fun none => by cases none⟩
    · exact .inl (same held)
  | retire other made live =>
    rw [destroyRuntime_eq] at held
    exact .inl (same held)
  | overtake other k code pending =>
    rw [invalidatePending_eq] at held
    exact .inl (same held)
  | finish m o result found executing =>
    unfold finishMutation at held
    split at held
    · split at held <;> exact .inl (same held)
    · exact .inl (same held)
  | fail m o error found executing =>
    unfold failMutation at held
    split at held <;> exact .inl (same held)

theorem result_move (move : Move shares s t) {m : Nat} {o : Mutation C Res E} (held : s.mutations[m]? = some o)
    (done : o.stage.result ≠ none) : t.mutations[m]? = some o := by
  have sets {j : Nat} {p : Mutation C Res E} {stage : MutationStage Res E} (found : s.mutations[j]? = some p)
      (unresolved : p.stage.result = none) : (s.mutations.set j { p with stage })[m]? = some o := by
    rw [getElem?_set_found found]
    split
    · rename_i here
      subst here
      rw [found] at held
      obtain rfl := Option.some.inj held
      exact (done unresolved).elim
    · exact held
  have waits {p : Mutation C Res E} (waiting : p.stage.isWaiting = true) : p.stage.result = none := by
    cases at_ : p.stage with
    | loading | deciding _ | executing => rfl
    | settled _ =>
      rw [at_] at waiting
      cases waiting
  cases move with
  | order | note | share | join | begin | load | allow | publish | settle | deliver | releases | close => exact held
  | reject k c error found running =>
    unfold rejectConstruction
    split <;> exact held
  | discard other made =>
    rw [destroyRuntime_eq]
    exact held
  | retire other made live =>
    rw [destroyRuntime_eq]
    exact held
  | overtake other k code pending =>
    rw [invalidatePending_eq]
    exact held
  | ask action request =>
    obtain ⟨small, -⟩ := List.getElem?_eq_some_iff.mp held
    exact (List.getElem?_append_left small).trans held
  | wait j p stage found waiting idle unresolved => exact sets found (waits waiting)
  | gate j p found waiting usable free room => exact sets found (waits waiting)
  | finish j p result found executing =>
    unfold finishMutation
    split
    · split <;> exact sets found (by rw [executing]; rfl)
    · exact sets found (by rw [executing]; rfl)
  | fail j p error found executing =>
    unfold failMutation
    split <;> exact sets found (by rw [executing]; rfl)

/-! ### After a deletion -/

structure AfterDeletion (id : ConversationId) (s t : RuntimeRegistry C R Res E) : Prop where
  deleted : t.Deleted id
  opens : ∀ (i : Nat) (o : OpenCall C R E), t.opens[i]? = some o → o.request.conversationId = id →
    ∃ before, s.opens[i]? = some before ∧ before.request = o.request ∧ before.construction = o.construction ∧
      (o.outcome = none → before.outcome = none)
  made : ∀ (k : Nat) (d : Construction C R E) (runtime : R), t.constructions[k]? = some d → d.request.conversationId = id →
    d.stage.outcome = some (.ok runtime) → ∃ c, s.constructions[k]? = some c ∧ c.stage.outcome = some (.ok runtime)
  history : ∃ new, t.history = s.history ++ new ∧ ∀ request runtime, RegistryEvent.opened request runtime ∈ new →
    request.conversationId = id → ∃ (i k : Nat) (c : Construction C R E), s.opens[i]? = some ⟨request, k, none⟩ ∧
      s.constructions[k]? = some c ∧ c.stage.outcome = some (.ok runtime)

theorem afterDeletion_move {u : RuntimeRegistry C R Res E} (owned : t.Owned) (after : AfterDeletion id s t)
    (move : Move shares t u) : AfterDeletion id s u where
  deleted := by
    obtain ⟨m, o, result, found, removal, same, settled⟩ := after.deleted
    refine ⟨m, o, result, result_move move found ?_, removal, same, settled⟩
    rw [settled]
    simp [MutationStage.result]
  opens i o held same := by
    rcases awaits_move move held with ⟨before, stood, request, construction, open_⟩ | ⟨usable, free⟩ | pending
    · obtain ⟨first, found, equal, origin, unanswered⟩ := after.opens i before stood (by rw [request, same])
      exact ⟨first, found, equal.trans request, origin.trans construction, fun none => unanswered (open_ none)⟩
    · rw [same] at free
      rcases owned.deleted_entry after.deleted with ⟨result, stands⟩ | ⟨closed, -⟩
      · rw [free] at stands
        cases stands
      · rw [usable] at closed
        cases closed
    · rw [same] at pending
      cases owned.not_shared after.deleted pending
  made k d runtime held same returned := by
    rcases made_move move held returned with ⟨c, found, request, before⟩ | ⟨pending, -⟩
    · exact after.made k c runtime found (by rw [request, same]) before
    · rw [same] at pending
      cases owned.not_shared after.deleted pending
  history := by
    obtain ⟨old, first, known⟩ := after.history
    obtain ⟨new, second, sources⟩ := history_move move
    refine ⟨old ++ new, by rw [second, first, List.append_assoc], fun request runtime opened same => ?_⟩
    rcases List.mem_append.mp opened with before | now
    · exact known request runtime before same
    · rcases sources request runtime now with ⟨live, -⟩ | ⟨i, k, c, called, found, settled⟩
      · rw [same] at live
        cases owned.not_shared after.deleted live
      · obtain ⟨⟨asked, origin, answered⟩, stood, request, construction, open_⟩ := after.opens i _ called same
        cases request
        cases construction
        cases open_ rfl
        obtain ⟨d, there, equal, -⟩ := owned.opens i _ called
        rw [found] at there
        obtain rfl := Option.some.inj there
        obtain ⟨d, stands, returned⟩ := after.made k c runtime found (equal.trans same) (by rw [settled]; rfl)
        exact ⟨i, k, d, stood, stands, returned⟩

theorem afterDeletion_moves (ordered : s.Ordered) (deleted : s.Deleted id) (moves : Moves shares s t) :
    AfterDeletion id s t := by
  induction moves with
  | refl => exact {
      deleted
      opens := fun i o found _ => ⟨o, found, rfl, rfl, fun a => a⟩
      made := fun k d runtime found _ returned => ⟨d, found, returned⟩
      history := ⟨[], (List.append_nil _).symm, fun _ _ opened => absurd opened List.not_mem_nil⟩ }
  | tail moves move ih => exact afterDeletion_move (ordered_moves ordered moves).owned ih move

theorem continues_moves (moves : Moves shares s t) : Continues s t := by
  induction moves with
  | refl => exact .refl s
  | tail _ move ih => exact ih.trans (continues_move move)

/-! ### Ownership -/

structure Ownership (s : RuntimeRegistry C R Res E) : Prop where
  entries : s.entries.size ≤ s.limits.maxEntries
  active : s.activeConstructions = s.constructions.countP (·.stage.isUnsettled)
  concurrent : s.constructions.countP (·.stage.isUnsettled) ≤ s.limits.maxConcurrentConstructions
  /-- Every runtime is the live one of its conversation, or was destroyed exactly once. -/
  runtimes : ∀ id runtime, RegistryEvent.created id runtime ∈ s.history →
    s.entries.get id = some (.live runtime) ∨ s.destroys.count runtime = 1
  once : ∀ runtime, s.destroys.count runtime ≤ 1
  /-- At most one runtime of a conversation is not destroyed. -/
  single : ∀ id first second, RegistryEvent.created id first ∈ s.history → RegistryEvent.created id second ∈ s.history →
    first ∉ s.destroys → second ∉ s.destroys → first = second
  /-- While a mutation executes nothing of its conversation is live, and what is still being made is aborted. -/
  executing : ∀ (m : Nat) (o : Mutation C Res E), s.mutations[m]? = some o → o.stage = .executing →
    (∀ entry, s.entries.get o.request.conversationId = some entry → entry.isShared = false) ∧
    ∀ (k : Nat) (c : Construction C R E), s.constructions[k]? = some c →
      c.request.conversationId = o.request.conversationId → c.stage.isRunning = true → c.invalidation ≠ none
  /-- A lifecycle entry belongs to a mutation that executes. -/
  gates : ∀ id m, s.entries.get id = some (.lifecycle m) → ∃ o, s.mutations[m]? = some o ∧
    o.request.conversationId = id ∧ o.stage = .executing

theorem ownership_of_ordered (ordered : s.Ordered) : s.Ownership where
  entries := ordered.bounded.size
  active := ordered.bounded.active
  concurrent := ordered.bounded.active ▸ ordered.bounded.few
  runtimes id runtime made := by
    rcases ordered.accounted.created id runtime made with live | gone
    · exact .inl live
    · have distinct : s.destroys.Nodup := by
        rw [destroys, ordered.accounted.destroyed, List.nodup_reverse]
        exact ordered.accounted.once
      exact .inr (List.count_eq_one_of_mem distinct ((mem_destroys ordered.accounted).mpr gone))
  once runtime := by
    have distinct : s.destroys.Nodup := by
      rw [destroys, ordered.accounted.destroyed, List.nodup_reverse]
      exact ordered.accounted.once
    exact List.nodup_iff_count_le_one.mp distinct runtime
  single id first second madeFirst madeSecond keptFirst keptSecond := by
    have liveFirst := (ordered.accounted.created id first madeFirst).resolve_right fun gone =>
      keptFirst ((mem_destroys ordered.accounted).mpr gone)
    have liveSecond := (ordered.accounted.created id second madeSecond).resolve_right fun gone =>
      keptSecond ((mem_destroys ordered.accounted).mpr gone)
    rw [liveFirst] at liveSecond
    exact RegistryEntry.live.inj (Option.some.inj liveSecond)
  executing m o found executing := by
    have unshared (entry : RegistryEntry R Res) (held : s.entries.get o.request.conversationId = some entry) :
        entry.isShared = false := by
      cases usable : s.disposed with
      | true =>
        rw [ordered.owned.empty usable] at held
        cases held
      | false =>
        rw [ordered.owned.executing found (by rw [executing]; rfl) usable] at held
        obtain rfl := Option.some.inj held
        rfl
    refine ⟨unshared, fun k c there same running current => ?_⟩
    have opened : c.openAt = some c.request.conversationId := if_pos ⟨running, current⟩
    have pending := named_construction_iff.mp (ordered.owned.pending.named there opened)
    rw [same] at pending
    cases unshared _ pending
  gates id m held := by
    obtain ⟨o, found, opened⟩ := (ordered.owned.gates id m).mp (named_mutation_iff.mpr held)
    unfold Mutation.openAt at opened
    split at opened
    · rename_i executing
      refine ⟨o, found, Option.some.inj opened, ?_⟩
      cases at_ : o.stage with
      | executing => rfl
      | loading | deciding _ | settled _ =>
        rw [at_] at executing
        cases executing.2
    · cases opened

omit [DecidableEq R] in
theorem open_deleted (owned : t.Owned) (deleted : t.Deleted id) {input : CatalogInput C} {request : GetSnapshot C}
    (parsed : snapshotGet input = .ok request) (same : request.conversationId = id) :
    ∃ code, (t.open_ input).2 = .rejected (.registry code) := by
  unfold open_
  split
  · exact ⟨_, rfl⟩
  · rename_i usable
    rcases owned.deleted_entry deleted with ⟨result, stands⟩ | ⟨closed, -⟩
    · rw [parsed]
      dsimp only
      rw [same, stands]
      exact ⟨_, rfl⟩
    · exact (usable closed).elim

variable [Conversation.DatePlatform]

structure Lasts (s t : RuntimeRegistry C R Res E) : Prop where
  /-- A construction that was overtaken never makes its conversation live, and whoever awaits it is rejected: when the
  factory answers, when its promise settles, and when that is seen. -/
  overtaken : ∀ (k : Nat) (c : Construction C R E), s.constructions[k]? = some c → s.Overtaken k c →
    ∃ d, t.constructions[k]? = some d ∧ d.request = c.request ∧
      (∀ id, t.entries.get id ≠ some (.pending k)) ∧ (∀ runtime, d.stage.outcome ≠ some (.ok runtime)) ∧
      (∀ descriptor answer, d.stage = .creating descriptor → ∃ error,
        ((t.step (.created k answer)).step (.finally_ k)).constructions[k]? = some { d with stage := .settled (.error error) }) ∧
      ∀ (i : Nat) (o : OpenCall C R E), t.opens[i]? = some o → o.construction = k →
        (∀ runtime, o.outcome ≠ some (.ok runtime)) ∧
        (o.outcome = none → ∀ outcome, d.stage = .settled outcome → ∃ error,
          (t.step (.opened i)).opens[i]? = some { o with outcome := some (.error error) })
  /-- Nothing is opened of a conversation after its deletion, except what had been made before. -/
  deleted : ∀ id, s.Deleted id →
    (∀ (input : CatalogInput C) (request : GetSnapshot C), snapshotGet input = .ok request → request.conversationId = id →
      ∃ code, (t.open_ input).2 = .rejected (.registry code)) ∧
    ∃ new, t.history = s.history ++ new ∧ ∀ request runtime, RegistryEvent.opened request runtime ∈ new →
      request.conversationId = id → ∃ (i k : Nat) (c : Construction C R E), s.opens[i]? = some ⟨request, k, none⟩ ∧
        s.constructions[k]? = some c ∧ c.stage.outcome = some (.ok runtime)

/-- A construction that was overtaken is rejected by whatever the factory answers. -/
theorem created_overtaken (owned : t.Owned) {k : Nat} {d : Construction C R E} (found : t.constructions[k]? = some d)
    (stale : d.invalidation ≠ none) {descriptor : CatalogDescriptor} (creating : d.stage = .creating descriptor)
    (answer : Except E R) : ∃ error, ((t.step (.created k answer)).step (.finally_ k)).constructions[k]? =
      some { d with stage := .settled (.error error) } := by
  have returned : ∃ error, (t.step (.created k answer)).constructions[k]? =
      some { d with stage := .returned (.error error) } := by
    change ∃ error, (t.advance k (.created k answer)).constructions[k]? = _
    unfold advance
    rw [found]
    dsimp only
    rw [creating]
    cases answer with
    | error error => exact ⟨_, rejectConstruction_stage found _⟩
    | ok runtime =>
      have unowned : t.isPending d.request.conversationId k = false :=
        eq_false_of_ne_true fun own => owned.not_pending found stale _ (isPending_iff.mp own)
      dsimp only [stepConstruction]
      unfold publish
      rw [if_pos]
      · refine ⟨_, rejectConstruction_stage ?_ _⟩
        rw [destroyRuntime_eq]
        exact found
      · rw [show (t.record (.created d.request.conversationId runtime)).isPending d.request.conversationId k = false from
          unowned]
        exact Bool.or_true _
  obtain ⟨error, stands⟩ := returned
  refine ⟨error, ?_⟩
  change ((t.step (.created k answer)).advance k (.finally_ k)).constructions[k]? = _
  unfold advance
  rw [stands]
  change ((t.step (.created k answer)).constructions.set k _)[k]? = _
  rw [getElem?_set_found stands, if_pos rfl]

theorem overtaken_lasts (ordered : s.Ordered) (moves : Moves shares s t) {k : Nat}
    (found : s.constructions[k]? = some c) (overtaken : s.Overtaken k c) :
    ∃ d, t.constructions[k]? = some d ∧ d.request = c.request ∧
      (∀ id, t.entries.get id ≠ some (.pending k)) ∧ (∀ runtime, d.stage.outcome ≠ some (.ok runtime)) ∧
      (∀ descriptor answer, d.stage = .creating descriptor → ∃ error,
        ((t.step (.created k answer)).step (.finally_ k)).constructions[k]? = some { d with stage := .settled (.error error) }) ∧
      ∀ (i : Nat) (o : OpenCall C R E), t.opens[i]? = some o → o.construction = k →
        (∀ runtime, o.outcome ≠ some (.ok runtime)) ∧
        (o.outcome = none → ∀ outcome, d.stage = .settled outcome → ∃ error,
          (t.step (.opened i)).opens[i]? = some { o with outcome := some (.error error) }) := by
  have later := (ordered_moves ordered moves).owned
  obtain ⟨d, stands, same, invalid, -⟩ := continues_moves moves k c found
  have stale := invalid (ordered.owned.stale_of_overtaken found overtaken)
  have unmade := later.overtaken k d stands stale
  refine ⟨d, stands, same, later.not_pending stands stale, unmade,
    fun descriptor answer creating => created_overtaken later stands stale creating answer, fun i o called origin => ?_⟩
  constructor
  · intro runtime resolved
    obtain ⟨e, there, -, settled⟩ := later.opens i o called
    rw [origin, stands] at there
    obtain rfl := Option.some.inj there
    refine unmade runtime ?_
    rw [settled _ resolved]
    rfl
  · intro unanswered outcome settled
    cases outcome with
    | ok runtime => exact (unmade runtime (by rw [settled]; rfl)).elim
    | error error =>
      refine ⟨error, ?_⟩
      obtain ⟨request, construction, result⟩ := o
      obtain ⟨asked, invalidation, stage⟩ := d
      cases origin
      cases unanswered
      cases settled
      change (t.deliver i).opens[i]? = _
      unfold deliver
      rw [called]
      dsimp only
      rw [stands]
      dsimp only
      rw [getElem?_set_found called, if_pos rfl]

/-- In every run the registry owns what it has made, and what was overtaken or deleted stays so. -/
theorem registry_ownership (limits : RegistryLimits) (before after : List (RegistryStep C R Res E)) :
    ((new limits).run before).Ownership ∧ Lasts ((new limits).run before) ((new limits).run (before ++ after)) := by
  have start := ordered_moves (ordered_new limits) (moves_run (ordered_new limits) (mayShareAll before))
  have moves := moves_run start (mayShareAll after)
  have whole : (new limits).run (before ++ after) = ((new limits).run before).run after := List.foldl_append ..
  rw [whole]
  refine ⟨ownership_of_ordered start, fun k c found overtaken => overtaken_lasts start moves found overtaken,
    fun id deleted => ?_⟩
  have gone := afterDeletion_moves start deleted moves
  exact ⟨fun input request parsed same => open_deleted (ordered_moves start moves).owned gone.deleted parsed same,
    gone.history⟩

/-! ### Runs in which a construction and an open come late -/

def sampleLimits : RegistryLimits := ⟨4, 2, by decide, by decide⟩

def sampleDescriptor : Json := Json.object [("conversationId", .str (js "c")), ("title", .null),
  ("createdAt", .str (js "2026-01-01T00:00:00.000Z")), ("updatedAt", .str (js "2026-01-01T00:00:00.000Z")),
  ("version", .num (.ofNat 1)), ("lifecycle", .str (js "active")), ("archivedAt", .null), ("metadata", Json.object [])]

def sampleOpen (context : Bool) : CatalogInput Bool := ⟨Json.object [("conversationId", .str (js "c"))], some context⟩

def sampleMutation : CatalogInput Bool := ⟨Json.object [("conversationId", .str (js "c")),
  ("expectedVersion", .num (.ofNat 1)), ("idempotencyKey", .str (js "k"))], some true⟩

def sampleOpening : List (RegistryStep Bool Nat Unit Unit) :=
  [.open_ (sampleOpen true), .loaded 0 (.ok sampleDescriptor), .decided 0 .allow]

def sampleMutating (action : LifecycleAction) : List (RegistryStep Bool Nat Unit Unit) :=
  [.mutate action sampleMutation, .mutationLoaded 0 (.ok sampleDescriptor), .mutationDecided 0 .allow]

def shownMutations (s : RuntimeRegistry Bool Nat Unit Unit) : List (ConversationId × Bool × Bool) :=
  s.mutations.map fun o => (o.request.conversationId, o.stage.isExecuting, o.stage.result.isSome)

def shownConstructions (s : RuntimeRegistry Bool Nat Unit Unit) : List (ConversationId × Bool) :=
  s.constructions.map fun c => (c.request.conversationId, c.stage.isRunning)

def shownOpens (s : RuntimeRegistry Bool Nat Unit Unit) : List (ConversationId × Option Nat) :=
  s.opens.map fun o => (o.request.conversationId, o.outcome.bind (·.toOption))

omit [Conversation.DatePlatform] in
/-- The factory is still called while a mutation of the conversation executes; and an open of a conversation resolves after
its permanent deletion has succeeded, when its runtime was made just before. -/
theorem lateness : (∃ _ : Conversation.DatePlatform, ∃ s, s = (new sampleLimits).run (sampleOpening ++ sampleMutating .archive) ∧
      shownMutations s = [(sampleId, true, false)] ∧ shownConstructions s = [(sampleId, true)]) ∧
    ∃ _ : Conversation.DatePlatform, ∃ before after : List (RegistryStep Bool Nat Unit Unit), ∃ s t,
      s = (new sampleLimits).run before ∧ t = (new sampleLimits).run (before ++ after) ∧
      shownMutations s = [(sampleId, false, true)] ∧ (s.mutations.map (·.action)) = [.permanentDelete] ∧
      shownOpens s = [(sampleId, none)] ∧ shownOpens t = [(sampleId, some 7)] := by
  constructor
  · refine ⟨Conversation.isoDates, _, rfl, ?_, ?_⟩
    · decide +kernel
    · decide +kernel
  · refine ⟨Conversation.isoDates, sampleOpening ++ [.mutate .permanentDelete sampleMutation,
      .mutationLoaded 0 (.ok sampleDescriptor), .created 0 (.ok 7), .mutationDecided 0 .allow, .executed 0 (.ok ())],
      [.finally_ 0, .opened 0], _, _, rfl, rfl, ?_, ?_, ?_, ?_⟩
    · decide +kernel
    · decide +kernel
    · decide +kernel
    · decide +kernel

end RuntimeRegistry

end Handrail.Registry

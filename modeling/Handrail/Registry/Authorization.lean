import Handrail.Registry.Deletion

/-!
# Who was allowed to open

An open that makes a runtime asks the catalog and the policy for its own authorization context. An open that finds a
runtime, or one on its way, asks nobody: what it gets was allowed to whoever opened first.
-/

namespace Handrail.Registry
open Js Catalog Concurrent

variable {C R Res E : Type}

/-- The catalog has found the conversation, and then the policy has allowed the open, both for this context. -/
def Authorized (history : List (RegistryEvent C R)) (request : GetSnapshot C) : Prop :=
  [.found request, .allowed .open_ request].Sublist history

def AuthorizedBefore (history : List (RegistryEvent C R)) : Prop :=
  ∀ (i : Nat) (request : GetSnapshot C) (runtime : R), history[i]? = some (.opened request runtime) →
    Authorized (history.take i) request

theorem Authorized.more {old : List (RegistryEvent C R)} {request : GetSnapshot C} (authorized : Authorized old request)
    (new : List (RegistryEvent C R)) : Authorized (old ++ new) request :=
  authorized.trans (List.sublist_append_left ..)

theorem AuthorizedBefore.append {old new : List (RegistryEvent C R)} (before : AuthorizedBefore old)
    (authorized : ∀ request runtime, RegistryEvent.opened request runtime ∈ new → Authorized old request) :
    AuthorizedBefore (old ++ new) := by
  intro i request runtime found
  by_cases small : i < old.length
  · rw [List.getElem?_append_left small] at found
    rw [List.take_append_of_le_length small.le]
    exact before i request runtime found
  · rw [List.getElem?_append_right (by omega)] at found
    rw [List.take_append, List.take_of_length_le (by omega)]
    exact (authorized request runtime (List.mem_of_getElem? found)).more _

namespace RuntimeRegistry
variable {s t : RuntimeRegistry C R Res E} {id : ConversationId}

def OpenedFor (s : RuntimeRegistry C R Res E) (request : GetSnapshot C) : Prop :=
  ∃ (k : Nat) (c : Construction C R E), s.constructions[k]? = some c ∧ c.request = request ∧
    (s.entries.get request.conversationId = some (.pending k) ∨
      ∃ runtime, s.entries.get request.conversationId = some (.live runtime) ∧ c.stage.outcome = some (.ok runtime))

structure Permitted (s : RuntimeRegistry C R Res E) : Prop where
  deciding : ∀ (k : Nat) (c : Construction C R E) (descriptor : CatalogDescriptor), s.constructions[k]? = some c →
    c.stage = .deciding descriptor → .found c.request ∈ s.history
  creating : ∀ (k : Nat) (c : Construction C R E) (descriptor : CatalogDescriptor), s.constructions[k]? = some c →
    c.stage = .creating descriptor → Authorized s.history c.request
  made : ∀ (k : Nat) (c : Construction C R E) (runtime : R), s.constructions[k]? = some c →
    c.stage.outcome = some (.ok runtime) → Authorized s.history c.request
  opens : ∀ (i : Nat) (o : OpenCall C R E), s.opens[i]? = some o →
    ∃ c, s.constructions[o.construction]? = some c ∧ c.request = o.request
  opened : AuthorizedBefore s.history

variable [DecidableEq R]

/-- A construction that awaits the policy was found, and one that awaits the factory was allowed. -/
theorem stage_move {shares : RuntimeRegistry C R Res E → GetSnapshot C → Prop} (move : Move shares s t) {k : Nat}
    {d : Construction C R E} (held : t.constructions[k]? = some d) (running : d.stage.isRunning = true) :
    (∃ c, s.constructions[k]? = some c ∧ c.request = d.request ∧ c.stage = d.stage) ∨
    (d.stage = .loading) ∨
    (∃ descriptor, d.stage = .deciding descriptor ∧ .found d.request ∈ t.history) ∨
    ∃ (c : Construction C R E) (descriptor : CatalogDescriptor), d.stage = .creating descriptor ∧
      s.constructions[k]? = some c ∧ c.request = d.request ∧ c.stage = .deciding descriptor ∧
      t.history = s.history ++ [.allowed .open_ d.request] := by
  have same (held : s.constructions[k]? = some d) :
      ∃ c, s.constructions[k]? = some c ∧ c.request = d.request ∧ c.stage = d.stage := ⟨d, held, rfl, rfl⟩
  have spent {j : Nat} {c : Construction C R E} {stage : ConstructionStage R E} (found : s.constructions[j]? = some c)
      (stands : (s.constructions.set j { c with stage })[k]? = some d) (spent : stage.isRunning = false) :
      ∃ c, s.constructions[k]? = some c ∧ c.request = d.request ∧ c.stage = d.stage := by
    rw [getElem?_set_found found] at stands
    split at stands
    · obtain rfl := Option.some.inj stands
      rw [spent] at running
      cases running
    · exact same stands
  cases move with
  | order | note | share | join | deliver | releases | ask | wait | gate | close => exact .inl (same held)
  | begin request usable free room few =>
    rcases getElem?_concat_cases held with before | ⟨-, rfl⟩
    · exact .inl (same before)
    · exact .inr (.inl rfl)
  | load j c descriptor found loading =>
    change (s.constructions.set j _)[k]? = some d at held
    rw [getElem?_set_found found] at held
    split at held
    · obtain rfl := Option.some.inj held
      exact .inr (.inr (.inl ⟨descriptor, rfl, List.mem_append_right _ (List.mem_singleton_self _)⟩))
    · exact .inl (same held)
  | allow j c descriptor found deciding =>
    change (s.constructions.set j _)[k]? = some d at held
    rw [getElem?_set_found found] at held
    split at held
    · rename_i here
      subst here
      obtain rfl := Option.some.inj held
      exact .inr (.inr (.inr ⟨c, descriptor, rfl, found, rfl, deciding, rfl⟩))
    · exact .inl (same held)
  | reject j c error found _ =>
    unfold rejectConstruction at held
    split at held <;> exact .inl (spent found held rfl)
  | publish j c descriptor runtime found creating usable own => exact .inl (spent found held rfl)
  | discard other made =>
    rw [destroyRuntime_eq] at held
    exact .inl (same held)
  | settle j c outcome found returned => exact .inl (spent found held rfl)
  | retire other made live =>
    rw [destroyRuntime_eq] at held
    exact .inl (same held)
  | overtake other j code pending =>
    rw [invalidatePending_eq] at held
    change (s.constructions.modify j _)[k]? = some d at held
    rw [List.getElem?_modify] at held
    obtain ⟨c, found, rfl⟩ := Option.map_eq_some_iff.mp held
    refine .inl ⟨c, found, ?_, ?_⟩ <;> split <;> rfl
  | finish m o result found executing =>
    unfold finishMutation at held
    split at held
    · split at held <;> exact .inl (same held)
    · exact .inl (same held)
  | fail m o error found executing =>
    unfold failMutation at held
    split at held <;> exact .inl (same held)

theorem join_move (move : Move OpenedFor s t) {i : Nat} {o : OpenCall C R E} (held : t.opens[i]? = some o) :
    (∃ before, s.opens[i]? = some before ∧ before.request = o.request ∧ before.construction = o.construction) ∨
    ∃ c, t.constructions[o.construction]? = some c ∧ c.request = o.request := by
  cases move with
  | join request k pending shared =>
    rcases getElem?_concat_cases held with before | ⟨-, rfl⟩
    · exact .inl ⟨o, before, rfl, rfl⟩
    · obtain ⟨j, c, found, same, own⟩ := shared
      rcases own with own | ⟨runtime, live, -⟩
      · rw [pending] at own
        cases own
        exact .inr ⟨c, found, same⟩
      · rw [pending] at live
        cases live
  | begin request usable free room few =>
    rcases getElem?_concat_cases held with before | ⟨-, rfl⟩
    · exact .inl ⟨o, before, rfl, rfl⟩
    · exact .inr ⟨_, List.getElem?_concat_length, rfl⟩
  | order | note | share | load | allow | publish | settle | releases | ask | wait | gate | close =>
    exact .inl ⟨o, held, rfl, rfl⟩
  | reject k c error found running =>
    unfold rejectConstruction at held
    split at held <;> exact .inl ⟨o, held, rfl, rfl⟩
  | discard other made =>
    rw [destroyRuntime_eq] at held
    exact .inl ⟨o, held, rfl, rfl⟩
  | deliver j k request c outcome called found settled =>
    rw [getElem?_set_found called] at held
    split at held
    · rename_i here
      subst here
      obtain rfl := Option.some.inj held
      exact .inl ⟨_, called, rfl, rfl⟩
    · exact .inl ⟨o, held, rfl, rfl⟩
  | retire other made live =>
    rw [destroyRuntime_eq] at held
    exact .inl ⟨o, held, rfl, rfl⟩
  | overtake other k code pending =>
    rw [invalidatePending_eq] at held
    exact .inl ⟨o, held, rfl, rfl⟩
  | finish m o' result found executing =>
    unfold finishMutation at held
    split at held
    · split at held <;> exact .inl ⟨o, held, rfl, rfl⟩
    · exact .inl ⟨o, held, rfl, rfl⟩
  | fail m o' error found executing =>
    unfold failMutation at held
    split at held <;> exact .inl ⟨o, held, rfl, rfl⟩

theorem permitted_move (permitted : s.Permitted) (move : Move OpenedFor s t) : t.Permitted := by
  obtain ⟨new, history, sources⟩ := history_move move
  constructor
  · intro k d descriptor held deciding
    rcases stage_move move held (by rw [deciding]; rfl) with ⟨c, found, same, stage⟩ | loading | ⟨-, -, seen⟩ |
      ⟨-, descriptor, creating, -⟩
    · rw [history, ← same]
      exact List.mem_append_left _ (permitted.deciding k c descriptor found (stage.trans deciding))
    · rw [loading] at deciding
      cases deciding
    · exact seen
    · rw [creating] at deciding
      cases deciding
  · intro k d descriptor held creating
    rcases stage_move move held (by rw [creating]; rfl) with ⟨c, found, same, stage⟩ | loading | ⟨_, deciding, -⟩ |
      ⟨c, allowed, -, found, same, deciding, more⟩
    · rw [history, ← same]
      exact (permitted.creating k c descriptor found (stage.trans creating)).more new
    · rw [loading] at creating
      cases creating
    · rw [deciding] at creating
      cases creating
    · rw [more, ← same]
      exact pair_sublist_concat.mpr (.inr ⟨permitted.deciding k c allowed found deciding, rfl⟩)
  · intro k d runtime held made
    rw [history]
    rcases made_move move held made with ⟨c, found, same, before⟩ | ⟨-, c, descriptor, found, same, creating⟩
    · exact same ▸ (permitted.made k c runtime found before).more new
    · exact same ▸ (permitted.creating k c descriptor found creating).more new
  · intro i o held
    rcases join_move move held with ⟨before, stood, same, origin⟩ | ⟨c, found, same⟩
    · obtain ⟨c, found, request⟩ := permitted.opens i before stood
      obtain ⟨d, there, equal, -⟩ := continues_move move _ c found
      exact ⟨d, origin ▸ there, equal.trans (request.trans same)⟩
    · exact ⟨c, found, same⟩
  · rw [history]
    refine permitted.opened.append fun request runtime opened => ?_
    rcases sources request runtime opened with ⟨live, k, c, found, same, own⟩ | ⟨i, k, c, called, found, settled⟩
    · rcases own with pending | ⟨other, stands, made⟩
      · rw [live] at pending
        cases pending
      · exact same ▸ permitted.made k c other found made
    · obtain ⟨d, there, same⟩ := permitted.opens i _ called
      rw [found] at there
      obtain rfl := Option.some.inj there
      have made := permitted.made k c runtime found (by rw [settled]; rfl)
      rw [same] at made
      exact made

theorem permitted_moves (permitted : s.Permitted) (moves : Moves OpenedFor s t) : t.Permitted := by
  induction moves with
  | refl => exact permitted
  | tail _ move ih => exact permitted_move ih move

variable [Conversation.DatePlatform]

/-- When every open that finds an entry carries the context that the entry was opened with, every open that resolves was
authorized for its own context before; one whose context was never allowed does not resolve. -/
theorem opens_authorized (limits : RegistryLimits) (actions : List (RegistryStep C R Res E))
    (own : (new limits).MayShareAll OpenedFor actions) :
    AuthorizedBefore ((new limits).run actions).history ∧
    ∀ request, .found request ∉ ((new limits).run actions).history ∨
        .allowed .open_ request ∉ ((new limits).run actions).history →
      ∀ runtime, .opened request runtime ∉ ((new limits).run actions).history := by
  have moves := moves_run (ordered_new limits) own
  have start : (new limits : RuntimeRegistry C R Res E).Permitted := by
    constructor
    · intro k c descriptor found
      cases found
    · intro k c descriptor found
      cases found
    · intro k c runtime found
      cases found
    · intro i o found
      cases found
    · intro i request runtime found
      cases found
  have permitted := permitted_moves start moves
  refine ⟨permitted.opened, fun request denied runtime resolved => ?_⟩
  obtain ⟨i, small, found⟩ := List.mem_iff_getElem.mp resolved
  have both := permitted.opened i request runtime (List.getElem?_eq_some_iff.mpr ⟨small, found⟩)
  have whole := both.trans (List.take_sublist ..)
  rcases denied with missing | missing
  · exact missing (whole.subset List.mem_cons_self)
  · exact missing (whole.subset (List.mem_cons_of_mem _ List.mem_cons_self))

def sampleJoining : List (RegistryStep Bool Nat Unit Unit) :=
  sampleOpening ++ [.open_ (sampleOpen true), .created 0 (.ok 7), .finally_ 0, .opened 0, .opened 1]

def foundContext : RegistryEvent Bool Nat → Option Bool
  | .found request => some request.authorizationContext
  | _ => none

def allowedContext : RegistryEvent Bool Nat → Option Bool
  | .allowed _ request => some request.authorizationContext
  | _ => none

def openedContext : RegistryEvent Bool Nat → Option Bool
  | .opened request _ => some request.authorizationContext
  | _ => none

omit [Conversation.DatePlatform] in
theorem opens_authorized_joined : ∃ _ : Conversation.DatePlatform, ∃ s, s = (new sampleLimits).run sampleJoining ∧
    AuthorizedBefore s.history ∧ s.history.filterMap openedContext = [true, true] := by
  let _ := Conversation.isoDates
  have request {input : GetSnapshot Bool} (parsed : snapshotGet (sampleOpen true) = .ok input) :
      input = ⟨true, sampleId⟩ := by
    have read : (snapshotGet (sampleOpen true)).toOption.map (fun r => (r.authorizationContext, r.conversationId)) =
        some (true, sampleId) := by decide +kernel
    rw [parsed] at read
    obtain ⟨context, id⟩ := input
    obtain ⟨rfl, rfl⟩ := Prod.mk.inj (Option.some.inj read)
    rfl
  have first : ((new sampleLimits).run ([] : List (RegistryStep Bool Nat Unit Unit))).MayShare OpenedFor
      (.open_ (sampleOpen true)) := by
    intro _ input entry _ found
    cases found
  have second : ((new sampleLimits).run sampleOpening).MayShare OpenedFor (.open_ (sampleOpen true)) := by
    intro _ input entry parsed _ _
    rw [request parsed]
    have shown : (((new sampleLimits).run sampleOpening).constructions[0]?.map
        fun c => (c.request.authorizationContext, c.request.conversationId)) = some (true, sampleId) := by decide +kernel
    have pending : ((new sampleLimits).run sampleOpening).isPending sampleId 0 = true := by decide +kernel
    obtain ⟨⟨⟨context, id⟩, invalidation, stage⟩, there, same⟩ := Option.map_eq_some_iff.mp shown
    obtain ⟨rfl, rfl⟩ := Prod.mk.inj same
    exact ⟨0, _, there, rfl, .inl (isPending_iff.mp pending)⟩
  have own : (new sampleLimits : RuntimeRegistry Bool Nat Unit Unit).MayShareAll OpenedFor sampleJoining :=
    ⟨first, trivial, trivial, second, trivial, trivial, trivial, trivial, trivial⟩
  exact ⟨_, _, rfl, (opens_authorized sampleLimits sampleJoining own).1, by decide +kernel⟩

omit [Conversation.DatePlatform] in
/-- A caller about whom neither the catalog nor the policy is ever asked gets the runtime that another one has opened. -/
theorem opened_for_anybody : ∃ _ : Conversation.DatePlatform, ∃ s : RuntimeRegistry Bool Nat Unit Unit,
    s = (new sampleLimits).run (sampleOpening ++ [.created 0 (.ok 7), .open_ (sampleOpen false)]) ∧
    s.history.filterMap openedContext = [false] ∧ s.history.filterMap foundContext = [true] ∧
    s.history.filterMap allowedContext = [true] ∧ ¬AuthorizedBefore s.history := by
  let _ := Conversation.isoDates
  generalize reached : (new sampleLimits).run (sampleOpening ++ [.created 0 (.ok 7), .open_ (sampleOpen false)]) = s
  have opened : s.history.filterMap openedContext = [false] := by
    rw [← reached]
    decide +kernel
  have found : s.history.filterMap foundContext = [true] := by
    rw [← reached]
    decide +kernel
  have allowed : s.history.filterMap allowedContext = [true] := by
    rw [← reached]
    decide +kernel
  refine ⟨_, s, reached.symm, opened, found, allowed, fun authorized => ?_⟩
  obtain ⟨event, member, context⟩ := List.mem_filterMap.mp (opened ▸ List.mem_singleton_self false)
  cases event with
  | opened request runtime =>
    obtain ⟨i, small, there⟩ := List.mem_iff_getElem.mp member
    have both := authorized i request runtime (List.getElem?_eq_some_iff.mpr ⟨small, there⟩)
    have asked := (both.trans (List.take_sublist ..)).subset List.mem_cons_self
    have seen : foundContext (.found request) = some false := context
    have listed := List.mem_filterMap.mpr ⟨_, asked, seen⟩
    rw [found] at listed
    cases List.mem_singleton.mp listed
  | found _ | allowed _ _ | created _ _ | destroyed _ => cases context

end RuntimeRegistry

end Handrail.Registry

import Handrail.Registry.Ownership

/-!
# The lifetimes of runtimes

What the registry owns stays in order over a run: bounds, constructions and calls, and the runtimes that the factory has
made. A construction that was overtaken never makes its conversation live, and a deleted conversation stays deleted.
-/

namespace Handrail.Registry
open Js Catalog Concurrent

variable {C R Res E : Type}

def RegistryEvent.destroyedRuntime : RegistryEvent C R → Option R
  | .destroyed runtime => some runtime
  | _ => none

namespace RuntimeRegistry
variable {s t : RuntimeRegistry C R Res E} {id : ConversationId} {k m : Nat}

def Continues (s t : RuntimeRegistry C R Res E) : Prop :=
  ∀ (k : Nat) (c : Construction C R E), s.constructions[k]? = some c → ∃ d, t.constructions[k]? = some d ∧
    d.request = c.request ∧ (c.invalidation ≠ none → d.invalidation ≠ none) ∧
    ∀ outcome, c.stage.outcome = some outcome → d.stage.outcome = some outcome ∧
      (c.stage = .settled outcome → d.stage = .settled outcome)

theorem Continues.refl (s : RuntimeRegistry C R Res E) : Continues s s := fun _ c found =>
  ⟨c, found, rfl, id, fun _ held => ⟨held, id⟩⟩

theorem Continues.trans {u : RuntimeRegistry C R Res E} (first : Continues s t) (second : Continues t u) :
    Continues s u := by
  intro k c found
  obtain ⟨d, foundD, sameD, invalidD, outcomeD⟩ := first k c found
  obtain ⟨e, foundE, sameE, invalidE, outcomeE⟩ := second k d foundD
  refine ⟨e, foundE, sameE.trans sameD, fun stale => invalidE (invalidD stale), fun outcome held => ?_⟩
  exact ⟨(outcomeE outcome (outcomeD outcome held).1).1,
    fun settled => (outcomeE outcome (outcomeD outcome held).1).2 ((outcomeD outcome held).2 settled)⟩

theorem continues_set {c : Construction C R E} {stage : ConstructionStage R E} (found : s.constructions[k]? = some c)
    (set : t.constructions = s.constructions.set k { c with stage })
    (stays : ∀ outcome, c.stage.outcome = some outcome → stage.outcome = some outcome ∧
      (c.stage = .settled outcome → stage = .settled outcome)) : Continues s t := by
  intro j d held
  rw [set, getElem?_set_found found]
  by_cases here : k = j
  · subst here
    rw [found] at held
    obtain rfl := Option.some.inj held
    exact ⟨_, if_pos rfl, rfl, id, stays⟩
  · exact ⟨d, by rw [if_neg here, held], rfl, id, fun _ same => ⟨same, id⟩⟩

theorem outcome_of_running {stage : ConstructionStage R E} (running : stage.isRunning = true) : stage.outcome = none := by
  cases stage with
  | loading | deciding _ | creating _ => rfl
  | returned _ | settled _ => cases running

/-! ### Runtimes -/

/-- A runtime that the factory has made is in the live entry of its conversation, or destroyed, and that once. -/
structure Accounted (s : RuntimeRegistry C R Res E) : Prop where
  created : ∀ id runtime, RegistryEvent.created id runtime ∈ s.history →
    s.entries.get id = some (.live runtime) ∨ runtime ∈ s.destroyedRuntimes
  destroyed : s.history.filterMap RegistryEvent.destroyedRuntime = s.destroyedRuntimes.reverse
  once : s.destroyedRuntimes.Nodup

theorem Accounted.more (accounted : s.Accounted) {events : List (RegistryEvent C R)}
    (entries : t.entries.get = s.entries.get) (destroyed : t.destroyedRuntimes = s.destroyedRuntimes)
    (history : t.history = s.history ++ events)
    (plain : ∀ event ∈ events, event.destroyedRuntime = none ∧ ∀ id runtime, event ≠ .created id runtime) : t.Accounted where
  created other runtime made := by
    rw [history, List.mem_append] at made
    rw [entries, destroyed]
    rcases made with before | new
    · exact accounted.created other runtime before
    · exact ((plain _ new).2 other runtime rfl).elim
  destroyed := by
    have none : events.filterMap RegistryEvent.destroyedRuntime = [] :=
      List.filterMap_eq_nil_iff.mpr fun event member => (plain event member).1
    rw [history, List.filterMap_append, none, List.append_nil, destroyed]
    exact accounted.destroyed
  once := destroyed ▸ accounted.once

theorem Accounted.replace (accounted : s.Accounted) {entry : Option (RegistryEntry R Res)}
    (changed : t.entries.get = Function.update s.entries.get id entry) (destroyed : t.destroyedRuntimes = s.destroyedRuntimes)
    (history : t.history = s.history)
    (spent : ∀ runtime, s.entries.get id = some (.live runtime) → runtime ∈ s.destroyedRuntimes) : t.Accounted where
  created other runtime made := by
    rw [changed, destroyed]
    rw [history] at made
    rcases accounted.created other runtime made with live | gone
    · by_cases same : other = id
      · exact .inr (spent runtime (same ▸ live))
      · exact .inl (by rw [Function.update_of_ne same, live])
    · exact .inr gone
  destroyed := by
    rw [history, destroyed]
    exact accounted.destroyed
  once := destroyed ▸ accounted.once

/-! ### Bounds -/

structure Bounded (s : RuntimeRegistry C R Res E) : Prop where
  size : s.entries.size ≤ s.limits.maxEntries
  active : s.activeConstructions = s.constructions.countP (·.stage.isUnsettled)
  few : s.activeConstructions ≤ s.limits.maxConcurrentConstructions

theorem unsettled_of_running {stage : ConstructionStage R E} (running : stage.isRunning = true) :
    stage.isUnsettled = true := by
  cases stage with
  | loading | deciding _ | creating _ => rfl
  | returned _ | settled _ => cases running

theorem size_set_le {m : OrderedMap ConversationId (RegistryEntry R Res)} {entry : RegistryEntry R Res} {bound : Nat}
    (fits : m.size ≤ bound) (room : m.has id = false → m.size < bound) : (m.set id entry).size ≤ bound := by
  rw [OrderedMap.size_set]
  split
  · exact fits
  · rename_i absent
    exact room (eq_false_of_ne_true absent)

structure Ordered (s : RuntimeRegistry C R Res E) : Prop where
  owned : s.Owned
  accounted : s.Accounted
  bounded : s.Bounded

theorem ordered_new (limits : RegistryLimits) : (new limits : RuntimeRegistry C R Res E).Ordered where
  owned := {
    pending := by
      intro id k
      constructor
      · intro held
        cases held
      · rintro ⟨c, found, -⟩
        cases found
    gates := by
      intro id m
      constructor
      · intro held
        cases held
      · rintro ⟨o, found, -⟩
        cases found
    overtaken := by
      intro k c found
      cases found
    deleted := by
      intro m o found
      cases found
    empty := by
      intro disposed
      cases disposed
    opens := by
      intro i o found
      cases found }
  accounted := {
    created := by
      intro id runtime made
      cases made
    destroyed := rfl
    once := List.nodup_nil }
  bounded := ⟨Nat.zero_le _, rfl, Nat.zero_le _⟩

/-! ### Moves -/

variable [DecidableEq R] {shares : RuntimeRegistry C R Res E → GetSnapshot C → Prop}

theorem continues_move (move : Move shares s t) : Continues s t := by
  have unmade {c : Construction C R E} {stage : ConstructionStage R E} (running : c.stage.isRunning = true)
      (outcome : Except (Rejection E) R) (held : c.stage.outcome = some outcome) : stage.outcome = some outcome ∧
        (c.stage = .settled outcome → stage = .settled outcome) := by
    rw [outcome_of_running running] at held
    cases held
  cases move with
  | order | note | share | join | deliver | releases | ask | wait | gate | close => exact .refl s
  | begin request usable free room few =>
    intro j d held
    obtain ⟨small, -⟩ := List.getElem?_eq_some_iff.mp held
    exact ⟨d, (List.getElem?_append_left small).trans held, rfl, id, fun _ same => ⟨same, id⟩⟩
  | load k c descriptor found loading => exact continues_set found rfl (unmade (by rw [loading]; rfl))
  | allow k c descriptor found deciding => exact continues_set found rfl (unmade (by rw [deciding]; rfl))
  | reject k c error found running =>
    unfold rejectConstruction
    split <;> exact continues_set found rfl (unmade running)
  | publish k c descriptor runtime found creating usable own =>
    exact continues_set found rfl (unmade (by rw [creating]; rfl))
  | discard id runtime =>
    rw [destroyRuntime_eq]
    exact .refl s
  | settle k c outcome found returned =>
    refine continues_set found rfl fun other held => ?_
    rw [returned] at held ⊢
    exact ⟨held, fun settled => by cases settled⟩
  | retire id runtime live =>
    rw [destroyRuntime_eq]
    exact .refl s
  | overtake id k code pending =>
    rw [invalidatePending_eq]
    intro j d held
    by_cases here : k = j
    · refine ⟨{ d with invalidation := d.invalidation.or (some code) }, ?_, rfl, fun _ => ?_, fun _ same => ⟨same, fun a => a⟩⟩
      · change (s.constructions.modify k _)[j]? = _
        rw [List.getElem?_modify, held]
        exact congrArg some (if_pos here)
      · cases d.invalidation <;> simp
    · refine ⟨d, ?_, rfl, fun a => a, fun _ same => ⟨same, fun a => a⟩⟩
      change (s.constructions.modify k _)[j]? = _
      rw [List.getElem?_modify, held]
      exact congrArg some (if_neg here)
  | finish m o result found executing =>
    unfold finishMutation
    split
    · split <;> exact .refl s
    · exact .refl s
  | fail m o error found executing =>
    unfold failMutation
    split <;> exact .refl s

theorem opens_move (owned : s.Owned) (move : Move shares s t) (i : Nat) (o : OpenCall C R E) (held : t.opens[i]? = some o) :
    ∃ c, t.constructions[o.construction]? = some c ∧ c.request.conversationId = o.request.conversationId ∧
      ∀ outcome, o.outcome = some outcome → c.stage = .settled outcome := by
  have before (held : s.opens[i]? = some o) : ∃ c, t.constructions[o.construction]? = some c ∧
      c.request.conversationId = o.request.conversationId ∧ ∀ outcome, o.outcome = some outcome → c.stage = .settled outcome := by
    obtain ⟨c, found, same, settled⟩ := owned.opens i o held
    obtain ⟨d, later, request, -, outcomes⟩ := continues_move move _ c found
    refine ⟨d, later, by rw [request, same], fun outcome answered => ?_⟩
    have at_ := settled outcome answered
    exact (outcomes outcome (by rw [at_]; rfl)).2 at_
  cases move with
  | order | note | share | load | allow | settle | releases | ask | wait | gate | publish | close => exact before held
  | join request k pending shared =>
    rcases getElem?_concat_cases held with earlier | ⟨-, rfl⟩
    · exact before earlier
    · obtain ⟨c, found, -⟩ := (owned.pending _ k).mp (named_construction_iff.mpr pending)
      exact ⟨c, found, (owned.running pending found).1, fun outcome none => by cases none⟩
  | begin request usable free room few =>
    rcases getElem?_concat_cases held with earlier | ⟨-, rfl⟩
    · exact before earlier
    · exact ⟨_, List.getElem?_concat_length, rfl, fun outcome none => by cases none⟩
  | reject k c error found running =>
    unfold rejectConstruction at held before ⊢
    split at held <;> exact before held
  | discard id runtime =>
    rw [destroyRuntime_eq] at held before ⊢
    exact before held
  | retire id runtime live =>
    rw [destroyRuntime_eq] at held before ⊢
    exact before held
  | overtake id k code pending =>
    rw [invalidatePending_eq] at held before ⊢
    exact before held
  | deliver j k request c outcome called found settled =>
    rw [getElem?_set_found called] at held
    split at held
    · obtain rfl := Option.some.inj held
      obtain ⟨d, same, equal, -⟩ := owned.opens j _ called
      rw [found] at same
      obtain rfl := Option.some.inj same
      refine ⟨c, found, equal, fun other answered => ?_⟩
      rw [settled, Option.some.inj answered]
    · exact before held
  | finish m o result found executing =>
    unfold finishMutation at held before ⊢
    split at held
    · split at held <;> exact before held
    · exact before held
  | fail m o error found executing =>
    unfold failMutation at held before ⊢
    split at held <;> exact before held

theorem owned_move (owned : s.Owned) (move : Move shares s t) : t.Owned where
  pending := pending_move owned move
  gates := gates_move owned move
  overtaken := overtaken_move owned move
  deleted := deleted_move owned move
  empty := empty_move owned move
  opens := opens_move owned move

theorem mem_destroyRuntime (runtime : R) : runtime ∈ (s.destroyRuntime runtime).destroyedRuntimes := by
  rw [destroyRuntime_eq]
  dsimp only
  split
  · assumption
  · exact List.mem_cons_self

theorem Accounted.destroy (accounted : s.Accounted) (runtime : R) : (s.destroyRuntime runtime).Accounted := by
  by_cases before : runtime ∈ s.destroyedRuntimes
  · rw [destroyRuntime, if_pos before]
    exact accounted
  · rw [destroyRuntime, if_neg before]
    constructor
    · intro other made member
      rcases List.mem_append.mp member with earlier | new
      · exact (accounted.created other made earlier).imp_right (List.mem_cons_of_mem _)
      · cases List.mem_singleton.mp new
    · change (s.history ++ [_]).filterMap _ = _
      rw [List.filterMap_append, accounted.destroyed]
      exact (List.reverse_cons ..).symm
    · exact List.nodup_cons.mpr ⟨before, accounted.once⟩

theorem Accounted.discard (accounted : s.Accounted) (id : ConversationId) (runtime : R) :
    ((s.record (.created id runtime)).destroyRuntime runtime).Accounted := by
  have made {other : ConversationId} {made : R}
      (member : RegistryEvent.created other made ∈ (s.record (.created id runtime)).history) (destroyed : List R)
      (more : s.destroyedRuntimes ⊆ destroyed) (gone : runtime ∈ destroyed) :
      s.entries.get other = some (.live made) ∨ made ∈ destroyed := by
    rcases List.mem_append.mp member with earlier | new
    · exact (accounted.created other made earlier).imp_right fun destroyed => more destroyed
    · obtain ⟨-, rfl⟩ := RegistryEvent.created.inj (List.mem_singleton.mp new)
      exact .inr gone
  by_cases before : runtime ∈ (s.record (.created id runtime)).destroyedRuntimes
  · rw [destroyRuntime, if_pos before]
    refine ⟨fun other runtime member => made member _ (List.Subset.refl _) before, ?_, accounted.once⟩
    change (s.history ++ [_]).filterMap _ = _
    rw [List.filterMap_append, accounted.destroyed]
    exact List.append_nil _
  · rw [destroyRuntime, if_neg before]
    refine ⟨fun other runtime member => ?_, ?_, List.nodup_cons.mpr ⟨before, accounted.once⟩⟩
    · rcases List.mem_append.mp member with earlier | new
      · exact made earlier _ (List.subset_cons_self ..) List.mem_cons_self
      · cases List.mem_singleton.mp new
    · change (s.history ++ [_] ++ [_]).filterMap _ = _
      rw [List.filterMap_append, List.filterMap_append, accounted.destroyed]
      exact (congrArg (· ++ [runtime]) (List.append_nil _)).trans (List.reverse_cons ..).symm

theorem accounted_move (accounted : s.Accounted) (move : Move shares s t) : t.Accounted := by
  have same {t : RuntimeRegistry C R Res E} (entries : t.entries.get = s.entries.get)
      (destroyed : t.destroyedRuntimes = s.destroyedRuntimes) (history : t.history = s.history) : t.Accounted :=
    accounted.more entries destroyed (show t.history = s.history ++ [] by rw [history, List.append_nil])
      fun event member => absurd member List.not_mem_nil
  have seen {t : RuntimeRegistry C R Res E} {event : RegistryEvent C R} (entries : t.entries.get = s.entries.get)
      (destroyed : t.destroyedRuntimes = s.destroyedRuntimes) (history : t.history = s.history ++ [event])
      (none : event.destroyedRuntime = none) (plain : ∀ id runtime, event ≠ .created id runtime) : t.Accounted :=
    accounted.more entries destroyed history fun other member => List.mem_singleton.mp member ▸ ⟨none, plain⟩
  cases move with
  | order entries equal size => exact same equal rfl rfl
  | note event plain =>
    refine seen rfl rfl rfl ?_ ?_ <;> cases event <;> simp_all [RegistryEvent.isPlain, RegistryEvent.destroyedRuntime]
  | share request runtime live shared => exact seen rfl rfl rfl rfl (by simp)
  | join | releases | ask | wait | settle => exact same rfl rfl rfl
  | begin request usable free room few =>
    exact accounted.replace (OrderedMap.get_set ..) rfl rfl fun runtime live => by rw [free] at live; cases live
  | load k c descriptor found loading => exact seen rfl rfl rfl rfl (by simp)
  | allow k c descriptor found deciding => exact seen rfl rfl rfl rfl (by simp)
  | reject k c error found running =>
    unfold rejectConstruction
    split
    · rename_i own
      exact accounted.replace (OrderedMap.get_delete ..) rfl rfl fun runtime live => by
        rw [isPending_iff.mp own] at live
        cases live
    · exact same rfl rfl rfl
  | publish k c descriptor runtime found creating usable own =>
    have before : (s.setEntry c.request.conversationId (.live runtime)).Accounted :=
      accounted.replace (OrderedMap.get_set ..) rfl rfl fun runtime live => by
        rw [own] at live
        cases live
    constructor
    · intro other made member
      rcases List.mem_append.mp member with earlier | new
      · exact before.created other made earlier
      · obtain ⟨rfl, rfl⟩ := RegistryEvent.created.inj (List.mem_singleton.mp new)
        exact .inl (OrderedMap.get_set_self ..)
    · change (s.history ++ [_]).filterMap _ = _
      rw [List.filterMap_append, accounted.destroyed]
      exact List.append_nil _
    · exact accounted.once
  | discard id runtime => exact accounted.discard id runtime
  | deliver i k request c outcome called found settled =>
    refine accounted.more rfl rfl (show _ = s.history ++ openedEvents request outcome from rfl) fun event member => ?_
    cases outcome with
    | error _ => cases member
    | ok runtime =>
      rw [List.mem_singleton.mp member]
      exact ⟨rfl, by simp⟩
  | retire id runtime live =>
    refine (accounted.destroy runtime).replace (OrderedMap.get_delete ..) rfl rfl fun other held => ?_
    have entries : (s.destroyRuntime runtime).entries = s.entries := by rw [destroyRuntime_eq]
    rw [entries, live] at held
    cases held
    exact mem_destroyRuntime runtime
  | overtake id k code pending =>
    rw [invalidatePending_eq]
    exact accounted.replace (OrderedMap.get_delete ..) rfl rfl fun runtime live => by rw [pending] at live; cases live
  | gate m o found waiting usable free room =>
    exact accounted.replace (OrderedMap.get_set ..) rfl rfl fun runtime live => by rw [free] at live; cases live
  | finish m o result found executing =>
    unfold finishMutation
    split
    · rename_i own
      have spent (runtime : R) (live : s.entries.get o.request.conversationId = some (.live runtime)) :
          runtime ∈ s.destroyedRuntimes := by
        rw [isLifecycle_iff.mp own] at live
        cases live
      split
      · exact accounted.replace (OrderedMap.get_set ..) rfl rfl spent
      · exact accounted.replace (OrderedMap.get_delete ..) rfl rfl spent
    · exact same rfl rfl rfl
  | fail m o error found executing =>
    unfold failMutation
    split
    · rename_i own
      exact accounted.replace (OrderedMap.get_delete ..) rfl rfl fun runtime live => by
        rw [isLifecycle_iff.mp own] at live
        cases live
    · exact same rfl rfl rfl
  | close pending idle =>
    refine ⟨fun id runtime made => ?_, accounted.destroyed, accounted.once⟩
    rcases accounted.created id runtime made with live | gone
    · cases idle id _ live
    · exact .inr gone

theorem bounded_move (bounded : s.Bounded) (move : Move shares s t) : t.Bounded := by
  have delete (id : ConversationId) : (s.entries.delete id).size ≤ s.limits.maxEntries :=
    (OrderedMap.size_delete_le ..).trans bounded.size
  have there {id : ConversationId} {entry : RegistryEntry R Res} (held : s.entries.get id = some entry)
      (absent : s.entries.has id = false) : s.entries.size < s.limits.maxEntries := by
    rw [has_of_get held] at absent
    cases absent
  -- A construction goes on, and does not settle.
  have active {k : Nat} {c : Construction C R E} {stage : ConstructionStage R E} (found : s.constructions[k]? = some c)
      (running : c.stage.isRunning = true) (unsettled : stage.isUnsettled = true) :
      s.activeConstructions = (s.constructions.set k { c with stage }).countP (·.stage.isUnsettled) := by
    have counted := countP_set_found found { c with stage } (·.stage.isUnsettled)
    simp only [unsettled, unsettled_of_running running] at counted
    rw [bounded.active]
    omega
  cases move with
  | order entries same size => exact ⟨size.trans_le bounded.size, bounded.active, bounded.few⟩
  | note | share | join | deliver | releases | ask | wait => exact ⟨bounded.size, bounded.active, bounded.few⟩
  | begin request usable free room few =>
    refine ⟨size_set_le bounded.size fun _ => room, ?_, few⟩
    change s.activeConstructions + 1 = (s.constructions ++ [_]).countP _
    rw [List.countP_append, bounded.active]
    rfl
  | load k c descriptor found loading => exact ⟨bounded.size, active found (by rw [loading]; rfl) rfl, bounded.few⟩
  | allow k c descriptor found deciding => exact ⟨bounded.size, active found (by rw [deciding]; rfl) rfl, bounded.few⟩
  | reject k c error found running =>
    unfold rejectConstruction
    split
    · exact ⟨delete _, active found running rfl, bounded.few⟩
    · exact ⟨bounded.size, active found running rfl, bounded.few⟩
  | publish k c descriptor runtime found creating usable own =>
    exact ⟨size_set_le bounded.size (there own), active found (by rw [creating]; rfl) rfl, bounded.few⟩
  | discard id runtime =>
    rw [destroyRuntime_eq]
    exact ⟨bounded.size, bounded.active, bounded.few⟩
  | settle k c outcome found returned =>
    have counted := countP_set_found found { c with stage := .settled outcome } (·.stage.isUnsettled)
    rw [if_pos (by rw [returned]; rfl)] at counted
    change _ = s.constructions.countP _ + 0 at counted
    have before := bounded.active
    refine ⟨bounded.size, ?_, (Nat.sub_le ..).trans bounded.few⟩
    change s.activeConstructions - 1 = (s.constructions.set k _).countP _
    omega
  | retire id runtime live =>
    rw [destroyRuntime_eq]
    exact ⟨delete id, bounded.active, bounded.few⟩
  | overtake id k code pending =>
    rw [invalidatePending_eq]
    refine ⟨delete id, ?_, bounded.few⟩
    change s.activeConstructions = (s.constructions.modify k _).countP _
    cases found : s.constructions[k]? with
    | none =>
      rw [List.modify_eq_self (List.getElem?_eq_none_iff.mp found)]
      exact bounded.active
    | some c =>
      have counted := countP_set_found found { c with invalidation := c.invalidation.or (some code) } (·.stage.isUnsettled)
      rw [List.modify_eq_set_getElem?, found]
      change s.activeConstructions = (s.constructions.set k _).countP _
      rw [bounded.active]
      exact (Nat.add_right_cancel counted).symm
  | gate m o found waiting usable free room =>
    exact ⟨size_set_le bounded.size fun _ => room, bounded.active, bounded.few⟩
  | finish m o result found executing =>
    unfold finishMutation
    split
    · rename_i own
      split
      · exact ⟨size_set_le bounded.size (there (isLifecycle_iff.mp own)), bounded.active, bounded.few⟩
      · exact ⟨delete _, bounded.active, bounded.few⟩
    · exact ⟨bounded.size, bounded.active, bounded.few⟩
  | fail m o error found executing =>
    unfold failMutation
    split
    · exact ⟨delete _, bounded.active, bounded.few⟩
    · exact ⟨bounded.size, bounded.active, bounded.few⟩
  | close pending idle => exact ⟨Nat.zero_le _, bounded.active, bounded.few⟩

/-! ### Runs -/

theorem ordered_moves (ordered : s.Ordered) (moves : Moves shares s t) : t.Ordered := by
  induction moves with
  | refl => exact ordered
  | tail _ move ih => exact ⟨owned_move ih.owned move, accounted_move ih.accounted move, bounded_move ih.bounded move⟩

variable [Conversation.DatePlatform]

/-- What every `open` of a run may share. -/
def MayShareAll (shares : RuntimeRegistry C R Res E → GetSnapshot C → Prop) :
    RuntimeRegistry C R Res E → List (RegistryStep C R Res E) → Prop
  | _, [] => True
  | s, action :: rest => s.MayShare shares action ∧ MayShareAll shares (s.step action) rest

/-- A run is made of moves. -/
theorem moves_run (ordered : s.Ordered) {actions : List (RegistryStep C R Res E)} (may : s.MayShareAll shares actions) :
    Moves shares s (s.run actions) := by
  induction actions generalizing s with
  | nil => exact .refl
  | cons action rest ih =>
    have first := moves_step ordered.bounded.size action may.1
    exact first.trans (ih (ordered_moves ordered first) may.2)

theorem mayShareAll (actions : List (RegistryStep C R Res E)) : s.MayShareAll (fun _ _ => True) actions := by
  induction actions generalizing s with
  | nil => trivial
  | cons action rest ih =>
    refine ⟨?_, ih⟩
    cases action with
    | open_ input => exact fun _ _ _ _ _ _ => trivial
    | _ => trivial

end RuntimeRegistry

end Handrail.Registry

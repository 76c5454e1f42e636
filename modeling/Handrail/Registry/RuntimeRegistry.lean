import Handrail.Catalog.InMemory
import Handrail.Concurrent.Named

/-!
# The registry of conversation runtimes

`ConversationRuntimeRegistry`: at most one runtime for each conversation, made on the first `open`, shared by later ones
and destroyed by `release`, by a lifecycle mutation and by `dispose`. The objects that the source tells apart by identity,
promises and entries, are named by the places of the calls that made them. A step is what runs between two awaits.
-/

namespace Handrail.Registry
open Js Catalog Concurrent

/-- Limits that `registryLimits` lets through. -/
structure RegistryLimits where
  maxEntries : Nat
  maxConcurrentConstructions : Nat
  entries : 1 ≤ maxEntries ∧ maxEntries ≤ 10000
  constructions : 1 ≤ maxConcurrentConstructions ∧ maxConcurrentConstructions ≤ 64

/-- `ConversationRuntimeRegistryErrorCode` -/
inductive RegistryErrorCode where
  | invalidOptions
  | disposed
  | capacityExhausted
  | policyDenied
  | lifecycleInProgress
  | constructionInvalidated
  | permanentlyDeleted
deriving DecidableEq, Repr

/-- The lifecycle actions of `ConversationRuntimeRegistryPolicyAction`. -/
inductive LifecycleAction where
  | clear
  | archive
  | restore
  | permanentDelete
deriving DecidableEq, Repr

/-- `ConversationRuntimeRegistryPolicyAction` -/
inductive PolicyAction where
  | open_
  | lifecycle (action : LifecycleAction)
deriving DecidableEq, Repr

def LifecycleAction.operation : LifecycleAction → CatalogAction
  | .clear => .clear
  | .archive => .archive
  | .restore => .restore
  | .permanentDelete => .permanentDelete

inductive PolicyAnswer where
  | allow
  /-- `"deny"`, or anything else. -/
  | other
  /-- It throws an error of the registry itself. -/
  | threwRegistryError (code : RegistryErrorCode)
  | threw
deriving DecidableEq, Repr

/-- `#authorizeRequest` -/
def PolicyAnswer.authorized : PolicyAnswer → Except RegistryErrorCode Unit
  | .allow => .ok ()
  | .other | .threw => .error .policyDenied
  | .threwRegistryError code => .error code

/-- What a promise of the registry is rejected with; `E` is what the catalog and the factory of the host throw. -/
inductive Rejection (E : Type) where
  | registry (code : RegistryErrorCode)
  | input (error : CatalogError)
  | host (error : E)

/-! ### Calls -/

/-- Where `#construct` is. -/
inductive ConstructionStage (R E : Type) where
  /-- Awaits `catalog.get`. -/
  | loading
  /-- Awaits the policy. -/
  | deciding (descriptor : CatalogDescriptor)
  /-- Awaits the factory. -/
  | creating (descriptor : CatalogDescriptor)
  /-- `#construct` is over, and the callback of `finally` is still to run. -/
  | returned (outcome : Except (Rejection E) R)
  | settled (outcome : Except (Rejection E) R)

structure Construction (C R E : Type) where
  request : GetSnapshot C
  invalidation : Option RegistryErrorCode
  stage : ConstructionStage R E

/-- An `open` that has returned the promise of a construction. -/
structure OpenCall (C R E : Type) where
  request : GetSnapshot C
  construction : Nat
  outcome : Option (Except (Rejection E) R)

/-- A `release` that awaits a construction. -/
structure ReleaseCall where
  construction : Nat
  resolved : Bool

inductive MutationStage (Res E : Type) where
  /-- Awaits `catalog.get`. -/
  | loading
  /-- Awaits the policy. -/
  | deciding (descriptor : CatalogDescriptor)
  /-- Awaits `execute`. -/
  | executing
  | settled (outcome : Except (Rejection E) Res)

structure Mutation (C Res E : Type) where
  action : LifecycleAction
  request : GetSnapshot C
  stage : MutationStage Res E

/-- `RegistryEntry`. An entry of a lifecycle operation is told apart by its mutation. -/
inductive RegistryEntry (R Res : Type) where
  | pending (construction : Nat)
  | live (runtime : R)
  | lifecycle (mutation : Nat)
  | deleted (result : Res)

inductive RegistryEvent (C R : Type) where
  /-- `catalog.get` has resolved. -/
  | found (request : GetSnapshot C)
  /-- The policy has answered `"allow"`. -/
  | allowed (action : PolicyAction) (request : GetSnapshot C)
  /-- The factory has resolved. -/
  | created (conversationId : ConversationId) (runtime : R)
  /-- `runtime.destroy()` -/
  | destroyed (runtime : R)
  /-- An `open` has resolved. -/
  | opened (request : GetSnapshot C) (runtime : R)

/-- `ConversationRuntimeRegistry`, and the calls that were made on it. -/
structure RuntimeRegistry (C R Res E : Type) where
  limits : RegistryLimits
  entries : OrderedMap ConversationId (RegistryEntry R Res)
  destroyedRuntimes : List R
  activeConstructions : Nat
  disposed : Bool
  /-- The constructions that `dispose` awaits. -/
  disposal : Option (List Nat)
  constructions : List (Construction C R E)
  opens : List (OpenCall C R E)
  releases : List ReleaseCall
  mutations : List (Mutation C Res E)
  history : List (RegistryEvent C R)

/-- What `open` returns at once. -/
inductive OpenReply (R E : Type) where
  | resolved (runtime : R)
  | rejected (error : Rejection E)
  | awaiting (construction : Nat)

inductive ReleaseReply (E : Type) where
  | resolved (released : Bool)
  | rejected (error : Rejection E)
  | awaiting (construction : Nat)

inductive MutationReply (E : Type) where
  | rejected (error : Rejection E)
  | started (mutation : Nat)

variable {C R Res E : Type}

/-- `#construct` has not returned. -/
def ConstructionStage.isRunning : ConstructionStage R E → Bool
  | .loading | .deciding _ | .creating _ => true
  | .returned _ | .settled _ => false

def ConstructionStage.isUnsettled : ConstructionStage R E → Bool
  | .settled _ => false
  | _ => true

def ConstructionStage.outcome : ConstructionStage R E → Option (Except (Rejection E) R)
  | .returned outcome | .settled outcome => some outcome
  | _ => none

def RegistryEntry.construction : RegistryEntry R Res → Option Nat
  | .pending k => some k
  | _ => none

def RegistryEntry.mutation : RegistryEntry R Res → Option Nat
  | .lifecycle m => some m
  | _ => none

namespace RuntimeRegistry

def new (limits : RegistryLimits) : RuntimeRegistry C R Res E where
  limits
  entries := .empty
  destroyedRuntimes := []
  activeConstructions := 0
  disposed := false
  disposal := none
  constructions := []
  opens := []
  releases := []
  mutations := []
  history := []

def record (s : RuntimeRegistry C R Res E) (event : RegistryEvent C R) : RuntimeRegistry C R Res E :=
  { s with history := s.history ++ [event] }

def setEntry (s : RuntimeRegistry C R Res E) (id : ConversationId) (entry : RegistryEntry R Res) : RuntimeRegistry C R Res E :=
  { s with entries := s.entries.set id entry }

def deleteEntry (s : RuntimeRegistry C R Res E) (id : ConversationId) : RuntimeRegistry C R Res E :=
  { s with entries := s.entries.delete id }

/-- `this.#entries.get(id) === entry`, for the entry of a construction -/
def isPending (s : RuntimeRegistry C R Res E) (id : ConversationId) (construction : Nat) : Bool :=
  (s.entries.get id).bind (·.construction) == some construction

/-- `this.#entries.get(id) === operation`, for the entry of a mutation -/
def isLifecycle (s : RuntimeRegistry C R Res E) (id : ConversationId) (mutation : Nat) : Bool :=
  (s.entries.get id).bind (·.mutation) == some mutation

def setStage (s : RuntimeRegistry C R Res E) (k : Nat) (c : Construction C R E) (stage : ConstructionStage R E) :
    RuntimeRegistry C R Res E := { s with constructions := s.constructions.set k { c with stage } }

def setMutation (s : RuntimeRegistry C R Res E) (m : Nat) (o : Mutation C Res E) (stage : MutationStage Res E) :
    RuntimeRegistry C R Res E := { s with mutations := s.mutations.set m { o with stage } }

def invalidatePending (s : RuntimeRegistry C R Res E) (k : Nat) (code : RegistryErrorCode) : RuntimeRegistry C R Res E :=
  match s.constructions[k]? with
  | some c =>
    if c.invalidation.isSome then s
    else { s with constructions := s.constructions.set k { c with invalidation := some code } }
  | none => s

variable [DecidableEq R]

def destroyRuntime (s : RuntimeRegistry C R Res E) (runtime : R) : RuntimeRegistry C R Res E :=
  if runtime ∈ s.destroyedRuntimes then s
  else { s with destroyedRuntimes := runtime :: s.destroyedRuntimes }.record (.destroyed runtime)

/-! ### `open` -/

/-- `open`, with `#construct` up to the call of `catalog.get`. -/
def open_ (s : RuntimeRegistry C R Res E) (input : CatalogInput C) : RuntimeRegistry C R Res E × OpenReply R E :=
  if s.disposed then (s, .rejected (.registry .disposed))
  else
    match snapshotGet input with
    | .error error => (s, .rejected (.input error))
    | .ok request =>
      match s.entries.get request.conversationId with
      | some (.live runtime) => (s.record (.opened request runtime), .resolved runtime)
      | some (.pending k) => ({ s with opens := s.opens ++ [⟨request, k, none⟩] }, .awaiting k)
      | some (.deleted _) => (s, .rejected (.registry .permanentlyDeleted))
      | some (.lifecycle _) => (s, .rejected (.registry .lifecycleInProgress))
      | none =>
        if s.limits.maxEntries ≤ s.entries.size then (s, .rejected (.registry .capacityExhausted))
        else if s.limits.maxConcurrentConstructions ≤ s.activeConstructions then
          (s, .rejected (.registry .capacityExhausted))
        else
          let k := s.constructions.length
          ({ s.setEntry request.conversationId (.pending k) with
            constructions := s.constructions ++ [⟨request, none, .loading⟩]
            activeConstructions := s.activeConstructions + 1
            opens := s.opens ++ [⟨request, k, none⟩] }, .awaiting k)

/-- The `catch` of `#construct`. -/
def rejectConstruction (s : RuntimeRegistry C R Res E) (k : Nat) (c : Construction C R E) (error : Rejection E) :
    RuntimeRegistry C R Res E :=
  let s := if s.isPending c.request.conversationId k then s.deleteEntry c.request.conversationId else s
  s.setStage k c (.returned (.error error))

def publish (s : RuntimeRegistry C R Res E) (k : Nat) (c : Construction C R E) (runtime : R) : RuntimeRegistry C R Res E :=
  if s.disposed || !s.isPending c.request.conversationId k then
    (s.destroyRuntime runtime).rejectConstruction k c (.registry (c.invalidation.getD .disposed))
  else (s.setEntry c.request.conversationId (.live runtime)).setStage k c (.returned (.ok runtime))

/-! ### `release` and `dispose` -/

def release (s : RuntimeRegistry C R Res E) (conversationId : Option Json) : RuntimeRegistry C R Res E × ReleaseReply E :=
  if s.disposed then (s, .rejected (.registry .disposed))
  else
    match parseIdentifier .get conversationId with
    | .error error => (s, .rejected (.input error))
    | .ok id =>
      match s.entries.get id with
      | none | some (.deleted _) => (s, .resolved false)
      | some (.lifecycle _) => (s, .rejected (.registry .lifecycleInProgress))
      | some (.live runtime) => ((s.deleteEntry id).destroyRuntime runtime, .resolved true)
      | some (.pending k) =>
        let s := (s.deleteEntry id).invalidatePending k .constructionInvalidated
        ({ s with releases := s.releases ++ [⟨k, false⟩] }, .awaiting k)

/-- What the loop of `dispose` does with an entry. -/
def disposeEntry (s : RuntimeRegistry C R Res E) : RegistryEntry R Res → RuntimeRegistry C R Res E
  | .live runtime => s.destroyRuntime runtime
  | .pending k => s.invalidatePending k .disposed
  | .lifecycle _ | .deleted _ => s

def dispose (s : RuntimeRegistry C R Res E) : RuntimeRegistry C R Res E :=
  match s.disposal with
  | some _ => s
  | none =>
    let entries := s.entries.entries.map Prod.snd
    { entries.foldl disposeEntry { s with disposed := true } with
      entries := .empty
      disposal := some (entries.filterMap (·.construction)) }

/-! ### Lifecycle mutations -/

/-- `clear`, `archive`, `restore` and `permanentlyDelete`, up to the call of `catalog.get` in `#mutate`. -/
def mutate (s : RuntimeRegistry C R Res E) (action : LifecycleAction) (input : CatalogInput C) :
    RuntimeRegistry C R Res E × MutationReply E :=
  match snapshotMutation action.operation input with
  | .error error => (s, .rejected (.input error))
  | .ok input =>
    if s.disposed then (s, .rejected (.registry .disposed))
    else
      ({ s with mutations := s.mutations ++ [⟨action, ⟨input.authorizationContext, input.conversationId⟩, .loading⟩] },
        .started s.mutations.length)

def gate (s : RuntimeRegistry C R Res E) (m : Nat) (o : Mutation C Res E) : RuntimeRegistry C R Res E :=
  (s.setEntry o.request.conversationId (.lifecycle m)).setMutation m o .executing

/-- `#mutate` after the policy has allowed it, up to the call of `execute`. -/
def beginMutation (s : RuntimeRegistry C R Res E) (m : Nat) (o : Mutation C Res E) : RuntimeRegistry C R Res E :=
  let fail (code : RegistryErrorCode) := s.setMutation m o (.settled (.error (.registry code)))
  if s.disposed then fail .disposed
  else
    match s.entries.get o.request.conversationId with
    | some (.deleted _) => fail .permanentlyDeleted
    | some (.lifecycle _) => fail .lifecycleInProgress
    | none => if s.limits.maxEntries ≤ s.entries.size then fail .capacityExhausted else s.gate m o
    | some (.live runtime) => (s.gate m o).destroyRuntime runtime
    | some (.pending k) =>
      (s.gate m o).invalidatePending k
        (if o.action = .permanentDelete then .permanentlyDeleted else .constructionInvalidated)

/-- `execute` has resolved. -/
def finishMutation (s : RuntimeRegistry C R Res E) (m : Nat) (o : Mutation C Res E) (result : Res) : RuntimeRegistry C R Res E :=
  let s :=
    if s.isLifecycle o.request.conversationId m then
      if s.disposed = false ∧ o.action = .permanentDelete then s.setEntry o.request.conversationId (.deleted result)
      else s.deleteEntry o.request.conversationId
    else s
  s.setMutation m o (.settled (.ok result))

/-- `execute` has thrown. -/
def failMutation (s : RuntimeRegistry C R Res E) (m : Nat) (o : Mutation C Res E) (error : E) : RuntimeRegistry C R Res E :=
  let s := if s.isLifecycle o.request.conversationId m then s.deleteEntry o.request.conversationId else s
  s.setMutation m o (.settled (.error (.host error)))

end RuntimeRegistry

/-! ### Runs -/

inductive RegistryStep (C R Res E : Type) where
  | open_ (input : CatalogInput C)
  | release (conversationId : Option Json)
  | mutate (action : LifecycleAction) (input : CatalogInput C)
  | dispose
  /-- `catalog.get` answers a construction; the descriptor of what it resolves with. -/
  | loaded (construction : Nat) (answer : Except E Json)
  | decided (construction : Nat) (answer : PolicyAnswer)
  | created (construction : Nat) (answer : Except E R)
  /-- The callback of `finally` runs. -/
  | finally_ (construction : Nat)
  /-- An `open` sees that its construction has settled. -/
  | opened (call : Nat)
  | released (call : Nat)
  | mutationLoaded (mutation : Nat) (answer : Except E Json)
  | mutationDecided (mutation : Nat) (answer : PolicyAnswer)
  | executed (mutation : Nat) (answer : Except E Res)

namespace RuntimeRegistry
variable [Conversation.DatePlatform] [DecidableEq R]

/-- A construction at `stage` goes on. -/
def stepConstruction (s : RuntimeRegistry C R Res E) (k : Nat) (c : Construction C R E) :
    ConstructionStage R E → RegistryStep C R Res E → RuntimeRegistry C R Res E
  | .loading, .loaded _ (.error error) => s.rejectConstruction k c (.host error)
  | .loading, .loaded _ (.ok descriptor) =>
    let s := s.record (.found c.request)
    match parseConversationCatalogDescriptor descriptor with
    | .error error => s.rejectConstruction k c (.input error)
    | .ok descriptor => s.setStage k c (.deciding descriptor)
  | .deciding descriptor, .decided _ answer =>
    match answer.authorized with
    | .error code => s.rejectConstruction k c (.registry code)
    | .ok () => (s.record (.allowed .open_ c.request)).setStage k c (.creating descriptor)
  | .creating _, .created _ (.error error) => s.rejectConstruction k c (.host error)
  | .creating _, .created _ (.ok runtime) => (s.record (.created c.request.conversationId runtime)).publish k c runtime
  | .returned outcome, .finally_ _ =>
    { s with activeConstructions := s.activeConstructions - 1 }.setStage k c (.settled outcome)
  | _, _ => s

/-- A mutation at `stage` goes on. -/
def stepMutation (s : RuntimeRegistry C R Res E) (m : Nat) (o : Mutation C Res E) :
    MutationStage Res E → RegistryStep C R Res E → RuntimeRegistry C R Res E
  | .loading, .mutationLoaded _ (.error error) => s.setMutation m o (.settled (.error (.host error)))
  | .loading, .mutationLoaded _ (.ok descriptor) =>
    let s := s.record (.found o.request)
    match parseConversationCatalogDescriptor descriptor with
    | .error error => s.setMutation m o (.settled (.error (.input error)))
    | .ok descriptor => s.setMutation m o (.deciding descriptor)
  | .deciding _, .mutationDecided _ answer =>
    match answer.authorized with
    | .error code => s.setMutation m o (.settled (.error (.registry code)))
    | .ok () => (s.record (.allowed (.lifecycle o.action) o.request)).beginMutation m o
  | .executing, .executed _ (.ok result) => s.finishMutation m o result
  | .executing, .executed _ (.error error) => s.failMutation m o error
  | _, _ => s

/-- The promise that an `open` has returned settles, once that of the construction has. -/
def deliver (s : RuntimeRegistry C R Res E) (i : Nat) : RuntimeRegistry C R Res E :=
  match s.opens[i]? with
  | some ⟨request, k, none⟩ =>
    match s.constructions[k]? with
    | some ⟨_, _, .settled outcome⟩ =>
      let s := { s with opens := s.opens.set i ⟨request, k, some outcome⟩ }
      match outcome with
      | .ok runtime => s.record (.opened request runtime)
      | .error _ => s
    | _ => s
  | _ => s

def deliverRelease (s : RuntimeRegistry C R Res E) (i : Nat) : RuntimeRegistry C R Res E :=
  match s.releases[i]? with
  | some ⟨k, false⟩ =>
    match s.constructions[k]? with
    | some ⟨_, _, .settled _⟩ => { s with releases := s.releases.set i ⟨k, true⟩ }
    | _ => s
  | _ => s

def advance (s : RuntimeRegistry C R Res E) (k : Nat) (action : RegistryStep C R Res E) : RuntimeRegistry C R Res E :=
  match s.constructions[k]? with
  | some c => s.stepConstruction k c c.stage action
  | none => s

def advanceMutation (s : RuntimeRegistry C R Res E) (m : Nat) (action : RegistryStep C R Res E) : RuntimeRegistry C R Res E :=
  match s.mutations[m]? with
  | some o => s.stepMutation m o o.stage action
  | none => s

def step (s : RuntimeRegistry C R Res E) (action : RegistryStep C R Res E) : RuntimeRegistry C R Res E :=
  match action with
  | .open_ input => (s.open_ input).1
  | .release conversationId => (s.release conversationId).1
  | .mutate action input => (s.mutate action input).1
  | .dispose => s.dispose
  | .loaded k _ | .decided k _ | .created k _ | .finally_ k => s.advance k action
  | .opened i => s.deliver i
  | .released i => s.deliverRelease i
  | .mutationLoaded m _ | .mutationDecided m _ | .executed m _ => s.advanceMutation m action

def run (s : RuntimeRegistry C R Res E) (actions : List (RegistryStep C R Res E)) : RuntimeRegistry C R Res E :=
  actions.foldl step s

end RuntimeRegistry

end Handrail.Registry

import Handrail.Realtime.Validation
import Mathlib.Data.Fintype.EquivFin

/-!
# A realtime voice client session

One operation at a time goes to the adapter. `#run` starts an asynchronous function and then stores its promise in
`#operation`; the `finally` of the function clears `#operation`. A function that throws before its first `await` is over
before its promise is stored.
-/

namespace Handrail.Realtime
open Js

inductive VoiceOperation where
  | start
  | interrupt
  | stopLocalMedia
deriving DecidableEq, Repr

inductive AdapterInput where
  | start (sessionId connection : JsString) (authorization : RealtimeVoiceClientAuthorization)
  | interrupt (sessionId : JsString)
  | stopLocalMedia (sessionId : JsString)
deriving DecidableEq, Repr

/-- The `invoke` of a method up to the call of the adapter. -/
def invoke (bootstrap : RealtimeVoiceBootstrapResult) (state : RealtimeVoiceSessionState) :
    VoiceOperation → Except Thrown AdapterInput
  | .start =>
    if state.status ≠ .ready then .error transitionError
    else .ok (.start bootstrap.sessionId bootstrap.connection bootstrap.authorization)
  | .interrupt =>
    if state.status ≠ .active ∨ state.capabilities.interruption.isSupported = false then .error transitionError
    else .ok (.interrupt bootstrap.sessionId)
  | .stopLocalMedia =>
    if state.localMediaActive = false ∨ state.status = .ended ∨ state.status = .failed then .error transitionError
    else .ok (.stopLocalMedia bootstrap.sessionId)

inductive Phase where
  /-- The adapter's method has been called and has not returned. -/
  | entered
  /-- The adapter's method has returned a promise. -/
  | awaiting
  | settled (result : Except Thrown RealtimeVoiceSessionState)

def Phase.isSettled : Phase → Bool
  | .settled _ => true
  | _ => false

/-- An asynchronous function that `#run` has started, and its promise. -/
structure StartedOperation where
  kind : VoiceOperation
  signal : Nat
  /-- What the adapter was called with, when it was called. -/
  reached : Option AdapterInput
  phase : Phase

/-- `RealtimeVoiceClientSessionImpl`. Promises are named by their place among the operations. -/
structure ClientSession where
  bootstrap : RealtimeVoiceBootstrapResult
  state : RealtimeVoiceSessionState
  /-- `#operation` -/
  operation : Option Nat
deriving DecidableEq

structure VoiceClient where
  session : ClientSession
  operations : List StartedOperation
  aborted : List Nat

inductive Reply where
  | rejected (error : Thrown)
  /-- Another operation is in progress: `new RealtimeVoiceTransitionError()`. -/
  | busy
  /-- The promise of an operation that was started. -/
  | started (operation : Nat)

def operationError (error : Thrown) (aborted : Bool) : Thrown :=
  match error with
  | .operation code => .operation code
  | error => .operation (normalizeRealtimeVoiceError error aborted)

namespace VoiceClient

def create (bootstrap : RealtimeVoiceBootstrapResult) : VoiceClient where
  session := { bootstrap, state := createRealtimeVoiceSessionState bootstrap, operation := none }
  operations := []
  aborted := []

def isAborted (c : VoiceClient) (signal : Nat) : Bool := c.aborted.contains signal

/-- `this.#operation = operation` -/
def store (c : VoiceClient) (operation : Nat) : VoiceClient :=
  { c with session := { c.session with operation := some operation } }

/-- The `finally` of an operation. -/
def clear (c : VoiceClient) : VoiceClient := { c with session := { c.session with operation := none } }

def push (c : VoiceClient) (o : StartedOperation) : VoiceClient := { c with operations := c.operations ++ [o] }

def setPhase (c : VoiceClient) (operation : Nat) (phase : Phase) : VoiceClient :=
  { c with operations := c.operations.modify operation fun o => { o with phase } }

/-- `#run` with the `invoke` of a method, up to the call of the adapter. A signal of `none` is no `AbortSignal`. -/
def call (c : VoiceClient) (kind : VoiceOperation) : Option Nat → VoiceClient × Reply
  | none => (c, .rejected (.validation ⟨js "$operation.signal", js "must be an AbortSignal"⟩))
  | some signal =>
    if c.isAborted signal then (c, .rejected (.operation .cancelled))
    else if c.session.operation.isSome then (c, .busy)
    else
      match invoke c.session.bootstrap c.session.state kind with
      | .error error =>
        -- The function is over, its `finally` included, when its promise is stored.
        (((c.push ⟨kind, signal, none, .settled (.error (operationError error (c.isAborted signal)))⟩).clear).store
          c.operations.length, .started c.operations.length)
      | .ok input => (c.push ⟨kind, signal, some input, .entered⟩, .started c.operations.length)

def settle (c : VoiceClient) (operation signal : Nat) (event : Option Json) : VoiceClient :=
  if c.isAborted signal then (c.setPhase operation (.settled (.error (.operation .cancelled)))).clear
  else
    match applyRealtimeVoiceSessionEvent c.session.state event with
    | .ok state => ({ c with session := { c.session with state } }.setPhase operation (.settled (.ok state))).clear
    | .error error => (c.setPhase operation (.settled (.error (operationError error false)))).clear

end VoiceClient

inductive VoiceAction where
  | call (kind : VoiceOperation) (signal : Option Nat)
  /-- The adapter's method returns a promise. -/
  | returned (operation : Nat)
  /-- The adapter's method throws. -/
  | threw (operation : Nat) (error : Thrown)
  | resolved (operation : Nat) (event : Option Json)
  | rejected (operation : Nat) (error : Thrown)
  | applyEvent (event : Option Json)
  | abort (signal : Nat)

namespace VoiceClient

def step (c : VoiceClient) : VoiceAction → VoiceClient
  | .call kind signal => (c.call kind signal).1
  | .returned operation =>
    match c.operations[operation]? with
    | some ⟨_, _, _, .entered⟩ => (c.setPhase operation .awaiting).store operation
    | _ => c
  | .threw operation error =>
    match c.operations[operation]? with
    | some ⟨_, signal, _, .entered⟩ =>
      ((c.setPhase operation (.settled (.error (operationError error (c.isAborted signal))))).clear).store operation
    | _ => c
  | .resolved operation event =>
    match c.operations[operation]? with
    | some ⟨_, signal, _, .awaiting⟩ => c.settle operation signal event
    | _ => c
  | .rejected operation error =>
    match c.operations[operation]? with
    | some ⟨_, signal, _, .awaiting⟩ =>
      (c.setPhase operation (.settled (.error (operationError error (c.isAborted signal))))).clear
    | _ => c
  | .applyEvent event =>
    match applyRealtimeVoiceSessionEvent c.session.state event with
    | .ok state => { c with session := { c.session with state } }
    | .error _ => c
  | .abort signal => { c with aborted := signal :: c.aborted }

def run (c : VoiceClient) (actions : List VoiceAction) : VoiceClient := actions.foldl step c

/-! ### Operations in progress -/

/-- An operation beside `but` has not settled. -/
def InProgressBut (c : VoiceClient) (but : Nat) : Prop :=
  ∃ (j : Nat) (o : StartedOperation), j ≠ but ∧ c.operations[j]? = some o ∧ o.phase.isSettled = false

def InProgress (c : VoiceClient) : Prop := ∃ o ∈ c.operations, o.phase.isSettled = false

/-- The operation that is over before its first `await`. -/
def endsAtOnce (c : VoiceClient) : VoiceAction → Option Nat
  | .call kind (some signal) =>
    if c.isAborted signal = false ∧ c.session.operation = none ∧
        (invoke c.session.bootstrap c.session.state kind).toOption = none then some c.operations.length
    else none
  | .threw operation _ =>
    match c.operations[operation]? with
    | some ⟨_, _, _, .entered⟩ => some operation
    | _ => none
  | _ => none

/-- No operation is over before its first `await`, unless another one is in progress. -/
def Suspends (c : VoiceClient) (action : VoiceAction) : Prop :=
  ∀ operation, c.endsAtOnce action = some operation → c.InProgressBut operation

/-- Every action of a run is one that `Suspends`. -/
def AllSuspend : VoiceClient → List VoiceAction → Prop
  | _, [] => True
  | c, action :: rest => c.Suspends action ∧ AllSuspend (c.step action) rest

structure Responsive (c : VoiceClient) : Prop where
  busy : ∀ kind signal, (c.call kind signal).2 = .busy → c.InProgress
  /-- A call in the wrong state leaves the session as it was, up to the marker, which `busy` is about. -/
  unchanged : ∀ kind signal, (invoke c.session.bootstrap c.session.state kind).toOption = none →
    (c.call kind signal).1.session = { c.session with operation := (c.call kind signal).1.session.operation }
  reaches : ∀ kind signal input, ¬c.InProgress → c.isAborted signal = false →
    invoke c.session.bootstrap c.session.state kind = .ok input →
    c.call kind (some signal) = (c.push ⟨kind, signal, some input, .entered⟩, .started c.operations.length)

/-- `#operation` holds a promise only while an operation is in progress. -/
def Marked (c : VoiceClient) : Prop := c.session.operation.isSome → c.InProgress

variable {c : VoiceClient}

theorem inProgress_iff :
    c.InProgress ↔ ∃ (j : Nat) (o : StartedOperation), c.operations[j]? = some o ∧ o.phase.isSettled = false := by
  constructor
  · rintro ⟨o, member, unsettled⟩
    obtain ⟨j, found⟩ := List.mem_iff_getElem?.mp member
    exact ⟨j, o, found, unsettled⟩
  · rintro ⟨j, o, found, unsettled⟩
    exact ⟨o, List.mem_of_getElem? found, unsettled⟩

theorem inProgress_setPhase {operation : Nat} {phase : Phase} (settles : phase.isSettled = true) :
    (c.setPhase operation phase).InProgress ↔ c.InProgressBut operation := by
  rw [inProgress_iff]
  simp only [setPhase, List.getElem?_modify, InProgressBut]
  constructor
  · rintro ⟨j, o, found, unsettled⟩
    obtain ⟨before, held, rfl⟩ := Option.map_eq_some_iff.mp found
    by_cases here : operation = j
    · rw [if_pos here, settles] at unsettled
      cases unsettled
    · rw [if_neg here] at unsettled
      exact ⟨j, before, fun same => here same.symm, held, unsettled⟩
  · rintro ⟨j, o, other, found, unsettled⟩
    have apart : ¬operation = j := fun same => other same.symm
    exact ⟨j, o, by simp [found, apart], unsettled⟩

theorem inProgress_push {o : StartedOperation} :
    (c.push o).InProgress ↔ c.InProgressBut c.operations.length ∨ o.phase.isSettled = false := by
  have inside : c.InProgress ↔ c.InProgressBut c.operations.length := by
    rw [inProgress_iff]
    constructor
    · rintro ⟨j, o, found, unsettled⟩
      obtain ⟨small, -⟩ := List.getElem?_eq_some_iff.mp found
      exact ⟨j, o, by omega, found, unsettled⟩
    · rintro ⟨j, o, _, found, unsettled⟩
      exact ⟨j, o, found, unsettled⟩
  rw [← inside]
  constructor
  · rintro ⟨other, member, unsettled⟩
    rcases List.mem_append.mp member with before | last
    · exact .inl ⟨other, before, unsettled⟩
    · rw [List.mem_singleton.mp last] at unsettled
      exact .inr unsettled
  · intro going
    rcases going with ⟨other, member, unsettled⟩ | unsettled
    · exact ⟨other, List.mem_append_left _ member, unsettled⟩
    · exact ⟨o, List.mem_append_right _ (List.mem_singleton_self o), unsettled⟩

theorem inProgress_of_get {j : Nat} {o : StartedOperation} (found : c.operations[j]? = some o)
    (unsettled : o.phase.isSettled = false) : c.InProgress := inProgress_iff.mpr ⟨j, o, found, unsettled⟩

theorem settle_operation (c : VoiceClient) (operation signal : Nat) (event : Option Json) :
    (c.settle operation signal event).session.operation = none := by
  unfold settle
  split
  · rfl
  · split <;> rfl

/-! ### What an operation that is over at once leaves -/

/-- When an operation is over before its first `await`, its promise is stored, and what is in progress is what was beside it. -/
theorem step_endsAtOnce {action : VoiceAction} {operation : Nat}
    (ends : c.endsAtOnce action = some operation) :
    (c.step action).session.operation = some operation ∧ ((c.step action).InProgress ↔ c.InProgressBut operation) := by
  unfold endsAtOnce at ends
  split at ends
  · rename_i kind signal
    split at ends
    · rename_i admitted
      obtain ⟨live, idle, wrong⟩ := admitted
      obtain rfl := Option.some.inj ends
      cases called : invoke c.session.bootstrap c.session.state kind with
      | ok input =>
        rw [called] at wrong
        cases wrong
      | error error =>
        have stepped : c.step (.call kind (some signal)) =
            ((c.push ⟨kind, signal, none, .settled (.error (operationError error (c.isAborted signal)))⟩).clear).store
              c.operations.length := by
          simp [step, call, live, idle, called]
        rw [stepped]
        exact ⟨rfl, inProgress_push.trans (or_iff_left (by simp [Phase.isSettled]))⟩
    · cases ends
  · rename_i threw error
    split at ends
    · rename_i kind signal reached found
      obtain rfl := Option.some.inj ends
      have stepped : c.step (.threw threw error) =
          ((c.setPhase threw (.settled (.error (operationError error (c.isAborted signal))))).clear).store threw := by
        simp [step, found]
      rw [stepped]
      exact ⟨rfl, inProgress_setPhase rfl⟩
    · cases ends
  · cases ends

theorem responsive_of_marked (marked : c.Marked) : c.Responsive where
  busy := by
    intro kind signal refused
    cases signal with
    | none => cases refused
    | some signal =>
      by_cases live : c.isAborted signal = true
      · rw [call, if_pos live] at refused
        cases refused
      · by_cases held : c.session.operation.isSome = true
        · exact marked held
        · rw [call, if_neg live, if_neg held] at refused
          split at refused <;> cases refused
  unchanged := by
    intro kind signal wrong
    cases signal with
    | none => rfl
    | some signal =>
      by_cases live : c.isAborted signal = true
      · rw [call, if_pos live]
      · by_cases held : c.session.operation.isSome = true
        · rw [call, if_neg live, if_pos held]
        · rw [call, if_neg live, if_neg held]
          split <;> rfl
  reaches := by
    intro kind signal input quiet live legal
    have idle : c.session.operation.isSome = false := by
      cases held : c.session.operation.isSome with
      | false => rfl
      | true => exact (quiet (marked held)).elim
    simp [call, live, idle, legal]

/-- A session whose stored promise has settled while nothing is in progress refuses the next call. -/
theorem not_responsive (held : c.session.operation.isSome = true) (quiet : ¬c.InProgress) :
    ¬c.Responsive := by
  intro responsive
  obtain ⟨signal, fresh⟩ := Infinite.exists_notMem_finset c.aborted.toFinset
  have live : c.isAborted signal = false := by
    simpa [isAborted] using fresh
  exact quiet (responsive.busy .start (some signal) (by simp [call, live, held]))

/-- The marker is set only while an operation is in progress, if every step suspends. -/
theorem marked_step {action : VoiceAction} (marked : c.Marked) (suspends : c.Suspends action) :
    (c.step action).Marked := by
  cases ends : c.endsAtOnce action with
  | some operation =>
    intro _
    exact (step_endsAtOnce ends).2.mpr (suspends operation ends)
  | none =>
    cases action with
    | call kind signal =>
      cases signal with
      | none => exact marked
      | some signal =>
        by_cases live : c.isAborted signal = true
        · simpa [step, call, live] using marked
        · by_cases held : c.session.operation.isSome = true
          · simpa [step, call, live, held] using marked
          · cases called : invoke c.session.bootstrap c.session.state kind with
            | ok input =>
              intro _
              simp only [step, call, if_neg live, if_neg held, called]
              exact inProgress_push.mpr (.inr rfl)
            | error error =>
              have idle : c.session.operation = none := by simpa using held
              simp [endsAtOnce, live, idle, called, Except.toOption] at ends
    | returned operation =>
      simp only [step]
      split
      · rename_i kind signal reached found
        intro _
        refine inProgress_of_get (j := operation) (o := ⟨kind, signal, reached, .awaiting⟩) ?_ rfl
        simp [store, setPhase, found]
      · exact marked
    | threw operation error =>
      simp only [endsAtOnce] at ends
      simp only [step]
      split
      · rename_i found
        rw [found] at ends
        cases ends
      · exact marked
    | resolved operation event =>
      simp only [step]
      split
      · intro held
        rw [settle_operation] at held
        cases held
      · exact marked
    | rejected operation error =>
      simp only [step]
      split
      · intro held
        cases held
      · exact marked
    | applyEvent event =>
      simp only [step]
      split
      · exact marked
      · exact marked
    | abort signal => exact marked

theorem marked_create (bootstrap : RealtimeVoiceBootstrapResult) : (create bootstrap).Marked := by
  intro held
  cases held

/-- Along every run that suspends, and only along those, every state keeps its promises. -/
theorem responsive_iff (marked : c.Marked) (actions : List VoiceAction) :
    (∀ before, before <+: actions → (c.run before).Responsive) ↔ c.AllSuspend actions := by
  induction actions generalizing c with
  | nil =>
    refine iff_of_true (fun before start => ?_) trivial
    rw [List.prefix_nil.mp start]
    exact responsive_of_marked marked
  | cons action rest ih =>
    constructor
    · intro responsive
      have suspends : c.Suspends action := by
        intro operation ends
        by_contra quiet
        obtain ⟨held, going⟩ := step_endsAtOnce ends
        refine not_responsive (c := c.step action) (by rw [held]; rfl) (fun inside => quiet (going.mp inside)) ?_
        exact responsive [action] (List.prefix_append [action] rest)
      refine ⟨suspends, (ih (marked_step marked suspends)).mp fun before start => ?_⟩
      exact responsive (action :: before) (List.cons_prefix_cons.mpr ⟨rfl, start⟩)
    · rintro ⟨suspends, later⟩ before start
      cases before with
      | nil => exact responsive_of_marked marked
      | cons first before =>
        obtain ⟨rfl, shorter⟩ := List.cons_prefix_cons.mp start
        exact (ih (marked_step marked suspends)).mpr later before shorter

/-! ### The session -/

/-- A session refuses an operation for another one only while one is in progress, and every legal operation reaches the
adapter, just as long as no operation is over before its first `await` while no other one is in progress. -/
theorem session_responsive (bootstrap : RealtimeVoiceBootstrapResult) (actions : List VoiceAction) :
    (∀ before, before <+: actions → ((create bootstrap).run before).Responsive) ↔
      (create bootstrap).AllSuspend actions := responsive_iff (marked_create bootstrap) actions

def sampleCapabilities : RealtimeVoiceCapabilities where
  inputAudio := .supported
  outputAudio := .supported
  interruption := .supported
  serverToolExecution := .unsupported (js "not_requested")

def sampleBootstrap : RealtimeVoiceBootstrapResult where
  requestId := js "request"
  sessionId := js "session"
  issuedAt := js "2026-01-01T00:00:00.000Z"
  expiresAt := js "2026-01-01T00:10:00.000Z"
  authorization := ⟨js "token", js "2026-01-01T00:01:00.000Z"⟩
  connection := js "connection"
  configuration := ⟨60000, 10000, none, none⟩
  capabilities := sampleCapabilities

/-- An interrupt before the session is active is refused, and no operation is started ever after. -/
theorem early_interrupt_wedges : ∃ c, c = (create sampleBootstrap).run [.call .interrupt (some 0)] ∧
    c.session.state = createRealtimeVoiceSessionState sampleBootstrap ∧ ¬c.InProgress ∧
    invoke c.session.bootstrap c.session.state .start =
      .ok (.start (js "session") (js "connection") sampleBootstrap.authorization) ∧
    (c.call .start (some 0)).2 = .busy ∧ ¬c.Responsive := by
  have quiet : ¬((create sampleBootstrap).run [.call .interrupt (some 0)]).InProgress := by
    rintro ⟨o, member, unsettled⟩
    rw [List.mem_singleton.mp member] at unsettled
    cases unsettled
  exact ⟨_, rfl, rfl, quiet, rfl, rfl, not_responsive rfl quiet⟩

end VoiceClient

end Handrail.Realtime

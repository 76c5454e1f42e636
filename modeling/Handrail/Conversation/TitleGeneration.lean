import Handrail.Concurrent.SharedIndependence
import Handrail.Conversation.TitleContext
import Handrail.Js.JsonReading

/-!
# `title-generation.ts`: title hooks shared by their callers

The service is a table of operations shared by key. Titles, contexts and conflicts are right in every run; that callers share
no cancellation, and that an invocation is never repeated beside one that runs, holds along runs in which no caller ends what
another one waits for.
-/

namespace Handrail.Conversation
open Js Handrail.Catalog Concurrent

inductive HookAnswer (ε : Type) where
  | resolved (output : JsValue)
  | rejected (error : ε)

/-- `#invoke`: the signal is looked at before the hook is called and behind an output. -/
def titleInvocation (ε : Type) : Discipline TitleContext JsString (HookAnswer ε) JsString ε where
  limit := titleGenerationLimits.idempotencyEntries
  signature := fun context => stringify context.toJson
  looksBefore := true
  looksAfter
    | .resolved _ => true
    | .rejected _ => false
  read
    | context, .resolved output => .ok (titleOf context output)
    | _, .rejected error => .error error

/-- A `ConversationTitleGenerationService`, with the operations and calls of its past. -/
abbrev TitleService (S ε : Type) := Shared CatalogKey TitleContext S (HookAnswer ε) JsString ε

/-- `GenerateConversationTitleInput`; a signal that is none is absent. -/
structure GenerateTitleInput (S : Type) where
  state : ConversationState
  signal : Option S
  idempotencyKey : Option Json

inductive TitleRejection (S : Type) where
  | aborted (signal : S)
  | error (code : TitleGenerationErrorCode)

inductive TitleEvent (S ε : Type) where
  | generateTitle (input : GenerateTitleInput S)
  | invoke (i : Nat)
  | answer (i : Nat) (answer : HookAnswer ε)
  | deliver (i : Nat)
  | interrupt (i : Nat)
  | proceed (i : Nat)
  | record (i : Nat)
  | abort (signal : S)
  | cancel (j : Nat)
  | settle (j : Nat)

namespace TitleService
variable {S ε : Type} [DecidableEq S]

/-- What `generateTitle` checks before it looks at the table. -/
def prepare (service : TitleService S ε) (input : GenerateTitleInput S) :
    Except (TitleRejection S) (CatalogKey × TitleContext × S) :=
  match input.signal with
  | none => .error (.error .invalidInput)
  | some signal =>
    if signal ∈ service.aborted then .error (.aborted signal)
    else match createTitleContext input.state with
      | .error code => .error (.error code)
      | .ok context =>
        match parseCatalogKey .rename input.idempotencyKey with
        | .error _ => .error (.error .invalidInput)
        | .ok key => .ok (key, context, signal)

def sharedEvent (service : TitleService S ε) :
    TitleEvent S ε → Option (SharedEvent CatalogKey TitleContext S (HookAnswer ε))
  | .generateTitle input =>
    match service.prepare input with
    | .ok (key, context, signal) => some (.call key context signal)
    | .error _ => none
  | .invoke i => some (.invoke i)
  | .answer i answer => some (.answer i answer)
  | .deliver i => some (.deliver i)
  | .interrupt i => some (.interrupt i)
  | .proceed i => some (.proceed i)
  | .record i => some (.record i)
  | .abort signal => some (.abort signal)
  | .cancel j => some (.cancel j)
  | .settle j => some (.settle j)

def step (service : TitleService S ε) (event : TitleEvent S ε) : TitleService S ε :=
  match service.sharedEvent event with
  | some event => Shared.step (titleInvocation ε) service event
  | none => service

def run (service : TitleService S ε) (events : List (TitleEvent S ε)) : TitleService S ε := events.foldl step service

/-! ### Contexts -/

variable {service : TitleService S ε} {context : TitleContext}

theorem prepare_ok {input : GenerateTitleInput S} {key : CatalogKey}
    {signal : S} (prepared : service.prepare input = .ok (key, context, signal)) :
    signal ∉ service.aborted ∧ createTitleContext input.state = .ok context := by
  unfold prepare at prepared
  cases given : input.signal with
  | none =>
    rw [given] at prepared
    cases prepared
  | some own =>
    rw [given] at prepared
    dsimp only at prepared
    by_cases halted : own ∈ service.aborted
    · rw [if_pos halted] at prepared
      cases prepared
    · rw [if_neg halted] at prepared
      cases created : createTitleContext input.state with
      | error _ =>
        rw [created] at prepared
        cases prepared
      | ok own =>
        rw [created] at prepared
        dsimp only at prepared
        cases parsed : parseCatalogKey .rename input.idempotencyKey with
        | error _ =>
          rw [parsed] at prepared
          cases prepared
        | ok _ =>
          rw [parsed] at prepared
          cases prepared
          exact ⟨halted, rfl⟩

theorem toJson_inj {a b : TitleContext} (same : stringify a.toJson = stringify b.toJson) : a = b := by
  have read := stringify_inj.mp same
  rw [TitleContext.toJson, TitleContext.toJson, Json.roundTrip_object, Json.roundTrip_object, Json.object, Json.object,
    Json.obj.injEq] at read
  simp only [Json.fieldsOf, List.map_cons, List.map_nil, List.cons.injEq, Prod.mk.injEq, true_and, and_true,
    Json.roundTrip_str, Json.roundTrip_arr, Json.str.injEq, Json.arr.injEq, List.map_map] at read
  obtain ⟨conversationId, userTexts⟩ := read
  obtain ⟨⟨own, _⟩, texts⟩ := a
  obtain ⟨⟨other, _⟩, texts'⟩ := b
  have writes : Function.Injective (Json.roundTrip ∘ Json.str) := fun x y equal => Json.str.inj equal
  cases conversationId
  cases List.map_injective_iff.mpr writes userTexts
  rfl

structure Presents (context : TitleContext) : Prop where
  limited : ∃ rest, Collected context.userTexts rest
  /-- Besides the conversation's name it depends on the texts of the user's messages only. -/
  source : ∃ state : ConversationState, state.conversationId.map BoundedText.text = some context.conversationId.text ∧
    context.userTexts = capTexts [] titleGenerationLimits.userTextTotalLength (userMessageTexts state.messages)

structure Serves (service : TitleService S ε) : Prop where
  titles : ∀ call ∈ service.calls, ∀ title, call.outcome = some (.ok title) → AcceptedTitle title
  contexts : ∀ i op, service.At i op → Presents op.request
  /-- An operation under way is the entry of its key. -/
  entered : ∀ i op, service.At i op → op.outcome = none → service.table.get op.key = some i
  /-- A call for the context of its key's entry invokes nothing. -/
  joins : ∀ input key context signal i op, service.prepare input = .ok (key, context, signal) →
    service.table.get key = some i → service.At i op → op.request = context →
    (service.step (.generateTitle input)).operations = service.operations
  conflicts : ∀ input key context signal i op, service.prepare input = .ok (key, context, signal) →
    service.table.get key = some i → service.At i op → op.request ≠ context →
    service.step (.generateTitle input) = service.refuse key context signal .conflict

structure Shares (service : TitleService S ε) : Prop where
  /-- No invocation runs beside another one for its key and context, or beside the result of one that is retained. -/
  once : ∀ i j op other, service.At i op → service.At j other → i ≠ j → op.key = other.key → op.request = other.request →
    op.invocation = .running ∨ service.table.get op.key = some i → other.invocation ≠ .running
  own : ∀ call ∈ service.calls, ∀ signal, call.outcome = some (.error (.aborted signal)) → signal = call.signal

/-- The step neither ends an operation that another call waits for nor begins one beside an abandoned invocation. -/
def Meets (service : TitleService S ε) (event : TitleEvent S ε) : Prop :=
  ∀ shared, service.sharedEvent event = some shared → Shared.Meets Eq (titleInvocation ε) service shared

def Meeting (service : TitleService S ε) : List (TitleEvent S ε) → Prop
  | [] => True
  | event :: rest => service.Meets event ∧ Meeting (service.step event) rest

/-! ### Every run -/

theorem presents_of_created {state : ConversationState}
    (created : createTitleContext state = .ok context) : Presents context := by
  obtain ⟨limited, named, texts⟩ := createTitleContext_ok created
  exact ⟨limited, state, named, texts⟩

theorem sharedEvent_call {event : TitleEvent S ε} {key : CatalogKey}
    {signal : S} (shared : service.sharedEvent event = some (.call key context signal)) : Presents context := by
  cases event with
  | generateTitle input =>
    simp only [sharedEvent] at shared
    cases prepared : service.prepare input with
    | error _ =>
      rw [prepared] at shared
      cases shared
    | ok call =>
      obtain ⟨own, given, other⟩ := call
      rw [prepared] at shared
      cases shared
      exact presents_of_created (prepare_ok prepared).2
  | _ => cases shared

theorem step_prepared {input : GenerateTitleInput S} {key : CatalogKey}
    {signal : S} (prepared : service.prepare input = .ok (key, context, signal)) :
    service.step (.generateTitle input) = Shared.request (titleInvocation ε) service key context signal := by
  simp only [step, sharedEvent, prepared]
  rfl

structure Stable (service : TitleService S ε) : Prop where
  sound : Shared.Sound (titleInvocation ε) service
  presents : ∀ i op, service.At i op → Presents op.request

theorem Stable.step (stable : service.Stable) (event : TitleEvent S ε) :
    (service.step event).Stable := by
  unfold TitleService.step
  cases shared : service.sharedEvent event with
  | none => exact stable
  | some own =>
    have change := Shared.step_change (d := titleInvocation ε) service own
    refine ⟨stable.sound.change change, Shared.asked_change stable.presents ?_ change⟩
    rintro key context signal rfl
    exact sharedEvent_call shared

theorem Stable.run (stable : service.Stable) (events : List (TitleEvent S ε)) :
    (service.run events).Stable := by
  induction events generalizing service with
  | nil => exact stable
  | cons event rest ih => exact ih (stable.step event)

omit [DecidableEq S] in
theorem empty_stable : Stable (Shared.empty : TitleService S ε) := ⟨Shared.empty_sound, by rintro i op ⟨⟩⟩

theorem Stable.serves (stable : service.Stable) : service.Serves where
  titles := by
    intro call member title told
    obtain ⟨i, op, answer, -, found, -, -, read⟩ := stable.sound.result member told
    cases answer with
    | rejected _ => cases read
    | resolved output =>
      cases read
      obtain ⟨rest, collected⟩ := (stable.presents i op found).limited
      exact accepted_titleOf collected output
  contexts := stable.presents
  entered _ _ found waits := stable.sound.entry_open found waits
  joins := by
    intro input key context signal i op prepared named found same
    rw [step_prepared prepared, Shared.request_joins (prepare_ok prepared).1 named found (by rw [same])]
    rfl
  conflicts := by
    intro input key context signal i op prepared named found differ
    rw [step_prepared prepared]
    exact Shared.request_conflict (prepare_ok prepared).1 named found fun same => differ (toJson_inj same)

theorem independent_meeting {events : List (TitleEvent S ε)}
    (independent : Shared.Independent Eq (titleInvocation ε) service) (stable : service.Stable)
    (meeting : service.Meeting events) : Shared.Independent Eq (titleInvocation ε) (service.run events) := by
  induction events generalizing service with
  | nil => exact independent
  | cons event rest ih =>
    refine ih ?_ (stable.step event) meeting.2
    unfold TitleService.step
    cases shared : service.sharedEvent event with
    | none => exact independent
    | some own =>
      exact independent.change stable.sound (fun _ _ same => same.symm) (meeting.1 own shared) (Shared.step_change service own)

theorem quiet_meeting {events : List (TitleEvent S ε)} (stable : service.Stable)
    (calm : service.aborted = []) (quiet : ∀ signal, .abort signal ∉ events) : service.Meeting events := by
  induction events generalizing service with
  | nil => trivial
  | cons event rest ih =>
    have own (signal : S) (shared : service.sharedEvent event = some (.abort signal)) : event = .abort signal := by
      cases event with
      | generateTitle input =>
        simp only [sharedEvent] at shared
        cases prepared : service.prepare input <;> rw [prepared] at shared <;> cases shared
      | abort _ =>
        cases shared
        rfl
      | _ => cases shared
    have calls (shared : SharedEvent CatalogKey TitleContext S (HookAnswer ε)) (gives : service.sharedEvent event = some shared)
        (signal : S) : shared ≠ .abort signal := by
      rintro rfl
      cases own signal gives
      exact quiet signal List.mem_cons_self
    refine ⟨fun shared gives => stable.sound.quiet_meets calm (calls shared gives), ih (stable.step event) ?_ ?_⟩
    · unfold TitleService.step
      cases gives : service.sharedEvent event with
      | none => exact calm
      | some shared =>
        exact (Shared.Change.keeps_aborted (calls shared gives)
          (Shared.step_change (d := titleInvocation ε) service shared)).trans calm
    · exact fun signal member => quiet signal (List.mem_cons_of_mem _ member)

def sampleInput (signal : Nat) : GenerateTitleInput Nat where
  state := { createInitialConversationState (some ⟨js "conversation", by decide, by decide⟩) with
    messages := [⟨⟨js "message", by decide, by decide⟩, none, some .user, [js "Plan a trip"], [], none, none⟩] }
  signal := some signal
  idempotencyKey := some (.str (js "title"))

def sharedTitle : List (TitleEvent Nat Unit) :=
  [.generateTitle (sampleInput 1), .invoke 0, .generateTitle (sampleInput 2), .answer 0 (.resolved (.str (js "A trip"))),
    .deliver 0, .proceed 0, .record 0, .settle 0, .settle 1]

def abandonedTitle : List (TitleEvent Nat Unit) :=
  [.generateTitle (sampleInput 1), .invoke 0, .generateTitle (sampleInput 2), .abort 1, .interrupt 0, .proceed 0, .record 0,
    .settle 1]

end TitleService
end Handrail.Conversation

import Handrail.Protocol.StreamRules

/-!
# Pumping frames to an observer

The loop that the direct and the managed transport share: a validator takes the frames one at a time,
a frame that is not terminal is pushed at once, and the terminal frame waits until the whole stream has
been checked.
-/

namespace Handrail.Transports
open Js Conversation Protocol

structure FrameObservation where
  /-- The frames up to the checkpoint that the observer resumed from. -/
  replayed : List StreamEvent
  pushed : List StreamEvent
  /-- Neither closed nor disconnected. -/
  listening : Bool

def FrameObservation.initial : FrameObservation := ⟨[], [], true⟩

def FrameObservation.delivered (observation : FrameObservation) : List StreamEvent :=
  observation.replayed ++ observation.pushed

/-- `observation.push(event)`, unless the checkpoint covers the event. -/
def FrameObservation.push (observation : FrameObservation) (suppressThrough : Option Nat) (event : StreamEvent) :
    FrameObservation :=
  if !observation.listening then observation
  else if suppressThrough.all (· < event.sequence) then
    { observation with pushed := observation.pushed ++ [event] }
  else { observation with replayed := observation.replayed ++ [event] }

/-- `close` and `disconnect`: nothing is pushed any more. -/
def FrameObservation.stop (observation : FrameObservation) : FrameObservation :=
  { observation with listening := false }

/-- A validator with states `σ` for the items `ι` of a source that ends with a result `ε`. -/
structure StreamPump (σ ι ε : Type) where
  start : σ
  accept : σ → ι → Checked (StreamEvent × σ)
  /-- The terminal frame, when the items ended well. -/
  finish : σ → ε → Option StreamEvent
  suppressThrough : Option Nat

inductive PumpAction (ι ε : Type) where
  | item (item : ι)
  | ends (result : ε)
  | fails
  | disconnects

structure PumpState (σ : Type) where
  validator : σ
  observation : FrameObservation
  running : Bool

namespace StreamPump
variable {σ ι ε : Type} (pump : StreamPump σ ι ε)

def initial : PumpState σ := ⟨pump.start, .initial, true⟩

def halt (state : PumpState σ) : PumpState σ :=
  { state with observation := state.observation.stop, running := false }

def step (state : PumpState σ) : PumpAction ι ε → PumpState σ
  | .disconnects => { state with observation := state.observation.stop }
  | .fails => halt state
  | .item item =>
    if !state.running then state
    else match pump.accept state.validator item with
      | .error _ => halt state
      | .ok (event, validator) =>
        if terminalEvent event then { state with validator }
        else { state with validator, observation := state.observation.push pump.suppressThrough event }
  | .ends result =>
    if !state.running then state
    else match pump.finish state.validator result with
      | none => halt state
      | some terminal =>
        halt { state with observation := state.observation.push pump.suppressThrough terminal }

def run (state : PumpState σ) (actions : List (PumpAction ι ε)) : PumpState σ := actions.foldl pump.step state

def accepted (validator : σ) : List (PumpAction ι ε) → List StreamEvent
  | .item item :: rest =>
    match pump.accept validator item with
    | .error _ => []
    | .ok (event, validator) => event :: accepted validator rest
  | _ => []

/-! ### Pumps whose validators check frames -/

structure Keeps [WebPlatform] (events : σ → List StreamEvent) (enforced : List StreamEvent → StreamEvent → Prop)
    (valid : σ → Prop) (validator : σ) : Prop where
  valid : valid validator
  enforced : Everywhere enforced (events validator)
  parsed : ∀ event ∈ events validator, parseStreamEvent (some event.value) = .ok event

/-- The validator keeps the frames it took, each of them a parsed frame that kept `enforced`, and ends with
a whole response only. -/
structure Sound [WebPlatform] (events : σ → List StreamEvent) (enforced : List StreamEvent → StreamEvent → Prop)
    (valid : σ → Prop) : Prop where
  start : events pump.start = []
  ready : valid pump.start
  grows : ∀ {validator item event next}, pump.accept validator item = .ok (event, next) →
    events next = events validator ++ [event]
  takes : ∀ {validator item event next}, Keeps events enforced valid validator →
    pump.accept validator item = .ok (event, next) →
    valid next ∧ enforced (events validator) event ∧ parseStreamEvent (some event.value) = .ok event
  numbered : ∀ {before event}, enforced before event → Numbered before event ∧ EndsLast before event
  finishes : ∀ {validator result terminal}, Keeps events enforced valid validator →
    pump.finish validator result = some terminal →
    Complete (events validator) ∧ (events validator).getLast? = some terminal

end StreamPump

/-! ### Terminal frames come last -/

def openFrames (events : List StreamEvent) : List StreamEvent := events.filter fun event => !terminalEvent event

variable {events : List StreamEvent}

theorem openFrames_self (isOpen : ∀ event ∈ events, terminalEvent event = false) :
    openFrames events = events := by
  apply List.filter_eq_self.mpr
  intro event member
  simp [isOpen event member]

theorem openFrames_isOpen : ∀ event ∈ openFrames events, terminalEvent event = false := by
  intro event member
  simpa using (List.mem_filter.mp member).2

variable {event : StreamEvent}

theorem openFrames_snoc
    (ends : Everywhere EndsLast (events ++ [event])) : openFrames (events ++ [event]) =
      if terminalEvent event then events else events ++ [event] := by
  have earlier : openFrames events = events := openFrames_self (everywhere_snoc.mp ends).2
  rw [openFrames, List.filter_append, ← openFrames, earlier]
  cases final : terminalEvent event <;> simp [final]

theorem openFrames_cases (ends : Everywhere EndsLast events) :
    events = openFrames events ∨ ∃ terminal, terminalEvent terminal = true ∧ events = openFrames events ++ [terminal] := by
  rcases List.eq_nil_or_concat events with rfl | ⟨front, last, rfl⟩
  · exact .inl rfl
  · rw [List.concat_eq_append] at ends ⊢
    rw [openFrames_snoc ends]
    cases final : terminalEvent last with
    | false => exact .inl rfl
    | true => exact .inr ⟨last, final, rfl⟩

theorem sequence_lt (numbered : Everywhere Numbered events)
    (member : event ∈ events) : event.sequence < events.length := by
  obtain ⟨before, after, rfl⟩ := List.append_of_mem member
  have number : event.sequence = before.length := numbered before event after rfl
  rw [number, List.length_append, List.length_cons]
  omega

namespace StreamPump
variable [WebPlatform] {σ ι ε : Type} {pump : StreamPump σ ι ε} {events : σ → List StreamEvent}
  {enforced missed : List StreamEvent → StreamEvent → Prop} {valid : σ → Prop}

/-! ### What a run delivers -/

variable {state : PumpState σ}

omit [WebPlatform] in
theorem run_stopped (stopped : state.observation.listening = false)
    (actions : List (PumpAction ι ε)) : (pump.run state actions).observation = state.observation := by
  induction actions generalizing state with
  | nil => rfl
  | cons action rest ih =>
    have one : (pump.step state action).observation = state.observation := by
      obtain ⟨validator, ⟨replayed, pushed, listening⟩, running⟩ := state
      obtain rfl : listening = false := stopped
      cases action with
      | disconnects | fails => rfl
      | item item =>
        simp only [step]
        split
        · rfl
        · split
          · rfl
          · split <;> rfl
      | ends result =>
        simp only [step]
        split
        · rfl
        · split <;> rfl
    rw [run, List.foldl_cons, ← run, ih (by rw [one]; exact stopped), one]

structure Live (pump : StreamPump σ ι ε) (events : σ → List StreamEvent)
    (enforced : List StreamEvent → StreamEvent → Prop) (valid : σ → Prop) (state : PumpState σ) : Prop where
  running : state.running = true
  listening : state.observation.listening = true
  keeps : Keeps events enforced valid state.validator
  delivered : state.observation.delivered = openFrames (events state.validator)
  beyond : ∀ event ∈ state.observation.pushed, pump.suppressThrough.all (· < event.sequence) = true

omit [WebPlatform] in
theorem FrameObservation.push_listening (observation : FrameObservation) (suppressThrough : Option Nat)
    (event : StreamEvent) : (observation.push suppressThrough event).listening = observation.listening := by
  unfold FrameObservation.push
  split
  · rfl
  · split <;> rfl

theorem Live.push (live : Live pump events enforced valid state)
    (later : ∀ other ∈ openFrames (events state.validator), other.sequence < event.sequence) :
    (state.observation.push pump.suppressThrough event).delivered = state.observation.delivered ++ [event] ∧
      ∀ other ∈ (state.observation.push pump.suppressThrough event).pushed,
        pump.suppressThrough.all (· < other.sequence) = true := by
  simp only [FrameObservation.push, live.listening, Bool.not_true, Bool.false_eq_true, ↓reduceIte]
  by_cases beyond : pump.suppressThrough.all (· < event.sequence) = true
  · rw [if_pos beyond]
    refine ⟨by simp [FrameObservation.delivered], fun other member => ?_⟩
    rcases List.mem_append.mp member with earlier | last
    · exact live.beyond other earlier
    · obtain rfl := List.mem_singleton.mp last
      exact beyond
  · rw [if_neg beyond]
    refine ⟨?_, live.beyond⟩
    have none : state.observation.pushed = [] := by
      apply List.eq_nil_iff_forall_not_mem.mpr
      intro other member
      have delivered : other ∈ state.observation.delivered := List.mem_append_right _ member
      rw [live.delivered] at delivered
      have before := later other delivered
      have shown := live.beyond other member
      cases threshold : pump.suppressThrough with
      | none =>
        rw [threshold] at beyond
        exact beyond rfl
      | some last =>
        rw [threshold] at beyond shown
        simp only [Option.all_some, decide_eq_true_eq] at beyond shown
        omega
    simp [FrameObservation.delivered, none]

theorem Sound.keeps_start (sound : pump.Sound events enforced valid) : Keeps events enforced valid pump.start where
  valid := sound.ready
  enforced := by
    rw [sound.start]
    exact everywhere_nil
  parsed := by
    rw [sound.start]
    exact List.forall_mem_nil _

theorem Sound.initial (sound : pump.Sound events enforced valid) : Live pump events enforced valid pump.initial where
  running := rfl
  listening := rfl
  keeps := sound.keeps_start
  delivered := by
    rw [StreamPump.initial, sound.start]
    rfl
  beyond := by
    intro event member
    cases member

theorem Keeps.grows {validator next : σ} (keeps : Keeps events enforced valid validator)
    (sound : pump.Sound events enforced valid) {item : ι}
    (taken : pump.accept validator item = .ok (event, next)) : Keeps events enforced valid next := by
  obtain ⟨valid, rule, parsed⟩ := sound.takes keeps taken
  have grown := sound.grows taken
  refine ⟨valid, ?_, ?_⟩
  · rw [grown]
    exact everywhere_snoc.mpr ⟨keeps.enforced, rule⟩
  · rw [grown, List.forall_mem_append, List.forall_mem_singleton]
    exact ⟨keeps.parsed, parsed⟩

/-! ### One step of a live pump -/

section
variable {state : PumpState σ} (running : state.running = true)
include running

omit [WebPlatform] in
theorem step_refused {item : ι} {failure : ValidationError}
    (refused : pump.accept state.validator item = .error failure) :
    pump.step state (.item item) = halt state := by
  simp only [step, running, Bool.not_true, Bool.false_eq_true, ↓reduceIte, refused]

omit [WebPlatform] in
theorem step_held {item : ι} {next : σ}
    (taken : pump.accept state.validator item = .ok (event, next)) (final : terminalEvent event = true) :
    pump.step state (.item item) = { state with validator := next } := by
  simp only [step, running, Bool.not_true, Bool.false_eq_true, ↓reduceIte, taken, final]

omit [WebPlatform] in
theorem step_pushed {item : ι} {next : σ}
    (taken : pump.accept state.validator item = .ok (event, next)) (isOpen : terminalEvent event = false) :
    pump.step state (.item item) = { state with
      validator := next, observation := state.observation.push pump.suppressThrough event } := by
  simp only [step, running, Bool.not_true, Bool.false_eq_true, ↓reduceIte, taken, isOpen]

omit [WebPlatform] in
theorem step_unfinished {result : ε} (unfinished : pump.finish state.validator result = none) :
    pump.step state (.ends result) = halt state := by
  simp only [step, running, Bool.not_true, Bool.false_eq_true, ↓reduceIte, unfinished]

omit [WebPlatform] in
theorem step_finished {result : ε} {terminal : StreamEvent}
    (finished : pump.finish state.validator result = some terminal) : pump.step state (.ends result) =
      halt { state with observation := state.observation.push pump.suppressThrough terminal } := by
  simp only [step, running, Bool.not_true, Bool.false_eq_true, ↓reduceIte, finished]

end

theorem Live.item (live : Live pump events enforced valid state) (sound : pump.Sound events enforced valid)
    {item : ι} {next : σ} (taken : pump.accept state.validator item = .ok (event, next)) :
    Live pump events enforced valid (pump.step state (.item item)) ∧
      (pump.step state (.item item)).validator = next := by
  have keeps := live.keeps.grows sound taken
  have grown := sound.grows taken
  have ends : Everywhere EndsLast (events state.validator ++ [event]) := by
    rw [← grown]
    exact keeps.enforced.imp fun _ _ rule => (sound.numbered rule).2
  have earlier := openFrames_self (everywhere_snoc.mp ends).2
  have number : event.sequence = (events state.validator).length :=
    (sound.numbered (sound.takes live.keeps taken).2.1).1
  by_cases final : terminalEvent event = true
  · rw [step_held live.running taken final]
    refine ⟨⟨live.running, live.listening, keeps, ?_, live.beyond⟩, rfl⟩
    rw [grown, openFrames_snoc ends, if_pos final]
    exact live.delivered.trans earlier
  · rw [Bool.not_eq_true] at final
    rw [step_pushed live.running taken final]
    have later (other : StreamEvent) (member : other ∈ openFrames (events state.validator)) :
        other.sequence < event.sequence := by
      rw [number]
      exact sequence_lt (live.keeps.enforced.imp fun _ _ rule => (sound.numbered rule).1) (List.mem_filter.mp member).1
    have pushed := live.push later
    refine ⟨⟨live.running, (FrameObservation.push_listening _ _ _).trans live.listening, keeps, ?_, pushed.2⟩, rfl⟩
    rw [grown, openFrames_snoc ends, if_neg (by rw [final]; exact Bool.false_ne_true)]
    exact pushed.1.trans (by rw [live.delivered, earlier])

theorem Live.finishes (live : Live pump events enforced valid state)
    (sound : pump.Sound events enforced valid) {result : ε} {terminal : StreamEvent}
    (finished : pump.finish state.validator result = some terminal) :
    (state.observation.push pump.suppressThrough terminal).delivered = events state.validator := by
  obtain ⟨complete, last⟩ := sound.finishes live.keeps finished
  obtain ⟨front, shape⟩ := List.getLast?_eq_some_iff.mp last
  have fits := complete.fits
  obtain ⟨final, found, ends, -⟩ := complete.ended
  obtain rfl := Option.some.inj (last.symm.trans found)
  rw [shape] at fits
  have opened : openFrames (events state.validator) = front := by
    rw [shape, openFrames_snoc (fits.imp fun _ _ rule => rule.endsLast), if_pos ends]
  have later (other : StreamEvent) (member : other ∈ openFrames (events state.validator)) :
      other.sequence < terminal.sequence := by
    rw [opened] at member
    rw [(everywhere_snoc.mp fits).2.numbered]
    exact sequence_lt ((everywhere_snoc.mp fits).1.imp fun _ _ rule => rule.numbered) member
  rw [(live.push later).1, live.delivered, opened, shape]

omit [WebPlatform] in
theorem accepted_nil (validator : σ) : pump.accepted validator [] = [] := rfl

omit [WebPlatform] in
theorem accepted_ends (validator : σ) (result : ε) (rest : List (PumpAction ι ε)) :
    pump.accepted validator (.ends result :: rest) = [] := rfl

/-- A run has delivered the frames before the terminal one, or the whole response. -/
theorem run_delivers (sound : pump.Sound events enforced valid) (live : Live pump events enforced valid state)
    (actions : List (PumpAction ι ε)) :
    let whole := events state.validator ++ pump.accepted state.validator actions
    let delivered := (pump.run state actions).observation.delivered
    delivered = openFrames whole ∨ delivered = whole ∧ Complete whole := by
  induction actions generalizing state with
  | nil =>
    left
    rw [accepted_nil, List.append_nil]
    exact live.delivered
  | cons action rest ih =>
    have stopped (after : PumpState σ) (same : after.observation = state.observation.stop) :
        (pump.run after rest).observation.delivered = openFrames (events state.validator ++ []) := by
      rw [run_stopped (by rw [same]; rfl), same, List.append_nil]
      exact live.delivered
    rw [show pump.run state (action :: rest) = pump.run (pump.step state action) rest from rfl]
    cases action with
    | disconnects => exact .inl (stopped _ rfl)
    | fails => exact .inl (stopped _ rfl)
    | item item =>
      cases taken : pump.accept state.validator item with
      | error failure =>
        simp only [accepted, taken]
        exact .inl (stopped _ (by rw [step_refused live.running taken]; rfl))
      | ok result =>
        obtain ⟨event, next⟩ := result
        obtain ⟨live', same⟩ := live.item sound taken
        have later := ih live'
        rw [same, sound.grows taken, List.append_assoc, List.singleton_append] at later
        simpa only [accepted, taken] using later
    | ends result =>
      cases finished : pump.finish state.validator result with
      | none => exact .inl (stopped _ (by rw [step_unfinished live.running finished]; rfl))
      | some terminal =>
        right
        rw [step_finished live.running finished, run_stopped rfl, accepted_ends, List.append_nil]
        exact ⟨live.finishes sound finished, (sound.finishes live.keeps finished).1⟩

/-! ### Every moment of a run -/

omit [WebPlatform] in
theorem accepted_prefix (pump : StreamPump σ ι ε) (validator : σ) (actions more : List (PumpAction ι ε)) :
    ∃ later, pump.accepted validator (actions ++ more) = pump.accepted validator actions ++ later := by
  induction actions generalizing validator with
  | nil => exact ⟨_, rfl⟩
  | cons action rest ih =>
    cases action with
    | disconnects | fails | ends => exact ⟨[], rfl⟩
    | item item =>
      rw [List.cons_append, accepted, accepted]
      cases pump.accept validator item with
      | error => exact ⟨[], rfl⟩
      | ok result =>
        obtain ⟨later, same⟩ := ih result.2
        exact ⟨later, congrArg (result.1 :: ·) same⟩

theorem Keeps.accepted (sound : pump.Sound events enforced valid) {validator : σ}
    (keeps : Keeps events enforced valid validator) (actions : List (PumpAction ι ε)) :
    Everywhere enforced (events validator ++ pump.accepted validator actions) ∧
      ∀ event ∈ events validator ++ pump.accepted validator actions,
        parseStreamEvent (some event.value) = .ok event := by
  induction actions generalizing validator with
  | nil =>
    rw [accepted_nil, List.append_nil]
    exact ⟨keeps.enforced, keeps.parsed⟩
  | cons action rest ih =>
    have none : Everywhere enforced (events validator ++ []) ∧
        ∀ event ∈ events validator ++ [], parseStreamEvent (some event.value) = .ok event := by
      rw [List.append_nil]
      exact ⟨keeps.enforced, keeps.parsed⟩
    cases action with
    | disconnects | fails | ends => exact none
    | item item =>
      rw [StreamPump.accepted]
      cases taken : pump.accept validator item with
      | error => exact none
      | ok result =>
        have later := ih (keeps.grows sound taken)
        rwa [sound.grows taken, List.append_assoc, List.singleton_append] at later

/-- With `missed` for the rules that the validator leaves out, the observer has a prefix of a whole response
at every moment exactly when the frames that were taken keep those rules. -/
theorem Sound.extends_iff (sound : pump.Sound events enforced valid)
    (rules : ∀ before event, Fits before event ↔ enforced before event ∧ missed before event)
    (vacuous : ∀ before event, terminalEvent event = true → missed before event)
    (actions : List (PumpAction ι ε)) :
    (∀ moment, moment <+: actions → Extends (pump.run pump.initial moment).observation.delivered) ↔
      Everywhere missed (pump.accepted pump.start actions) := by
  have facts (moment : List (PumpAction ι ε)) :
      (Everywhere enforced (pump.accepted pump.start moment) ∧
        ∀ event ∈ pump.accepted pump.start moment, parseStreamEvent (some event.value) = .ok event) ∧
      ((pump.run pump.initial moment).observation.delivered = openFrames (pump.accepted pump.start moment) ∨
        (pump.run pump.initial moment).observation.delivered = pump.accepted pump.start moment ∧
          Complete (pump.accepted pump.start moment)) := by
    have start : events pump.initial.validator = [] := sound.start
    have taken := sound.keeps_start.accepted sound moment
    have delivered := run_delivers sound sound.initial moment
    rw [sound.start, List.nil_append] at taken
    rw [start] at delivered
    exact ⟨taken, delivered⟩
  constructor
  · intro always
    obtain ⟨⟨enforced, parsed⟩, delivered⟩ := facts actions
    have now := always actions (List.prefix_refl actions)
    rcases delivered with opened | ⟨_, complete⟩
    · rw [opened] at now
      have fits := now.fits fun event member => parsed event (List.mem_filter.mp member).1
      have kept := fits.imp fun before event fits => ((rules before event).mp fits).2
      rcases openFrames_cases (enforced.imp fun _ _ rule => (sound.numbered rule).2) with same | ⟨terminal, ends, same⟩
      · rwa [← same] at kept
      · rw [same]
        exact everywhere_snoc.mpr ⟨kept, vacuous _ _ ends⟩
    · exact complete.fits.imp fun before event fits => ((rules before event).mp fits).2
  · intro kept moment begins
    obtain ⟨more, rfl⟩ := begins
    obtain ⟨⟨enforced, parsed⟩, delivered⟩ := facts moment
    obtain ⟨later, same⟩ := pump.accepted_prefix pump.start moment more
    rw [same] at kept
    rcases delivered with opened | ⟨whole, complete⟩
    · rw [opened]
      apply (Protocol.extends_iff (fun event member => parsed event (List.mem_filter.mp member).1)
        openFrames_isOpen).mpr
      have fits : Everywhere Fits (pump.accepted pump.start moment) :=
        (everywhere_and.mpr ⟨enforced, kept.of_append⟩).imp fun before event rule => (rules before event).mpr rule
      change Everywhere Fits (openFrames (pump.accepted pump.start moment))
      rcases openFrames_cases (enforced.imp fun _ _ rule => (sound.numbered rule).2) with same | ⟨terminal, _, same⟩
      · rwa [← same]
      · rw [same] at fits
        exact fits.of_append
    · rw [whole]
      exact complete.extends parsed

omit [WebPlatform] in
theorem run_fresh (fresh : pump.suppressThrough = none)
    (none : state.observation.replayed = []) (actions : List (PumpAction ι ε)) :
    (pump.run state actions).observation.delivered = (pump.run state actions).observation.pushed := by
  have kept : (pump.run state actions).observation.replayed = [] := by
    induction actions generalizing state with
    | nil => exact none
    | cons action rest ih =>
      have push (event : StreamEvent) : (state.observation.push pump.suppressThrough event).replayed = [] := by
        rw [FrameObservation.push, fresh]
        split
        · exact none
        · exact none
      apply ih
      cases action with
      | disconnects | fails => exact none
      | item item =>
        simp only [step]
        split
        · exact none
        · split
          · exact none
          · split
            · exact none
            · exact push _
      | ends result =>
        simp only [step]
        split
        · exact none
        · split
          · exact none
          · exact push _
  rw [FrameObservation.delivered, kept, List.nil_append]

end StreamPump

end Handrail.Transports

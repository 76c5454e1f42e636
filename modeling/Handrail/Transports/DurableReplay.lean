import Mathlib.Data.List.Infix
import Handrail.Transports.DurableSafety

/-!
# Replay of durable turns

The delegate replays one sequence of events from its beginning on every start. As long as a turn that
retains events is not dispatched again, the retained events are a prefix of that sequence, and so is
what a chain of resumed observations yields.
-/

namespace Handrail.Transports
open Js Concurrent Conversation

variable {Event : Type}

/-! ### The sequence -/

def DurableOptions.checkpoint (options : DurableOptions Event) (event : Event) : TurnResumePoint :=
  ((options.checkpointForEvent event).bind normalizeCheckpoint).getD emptyCheckpoint

def DurableOptions.entries (options : DurableOptions Event) (sequence : List Event) : List (DurableTurnEvent Event) :=
  sequence.mapIdx fun i event => ⟨i + 1, options.checkpoint event, event⟩

def Outside.Replays (sequence : List Event) (outside : Outside Event) : Prop :=
  ∀ position event, outside.item position = .event event → sequence[position]? = some event

theorem resumeIndex_prefix {events more : List (DurableTurnEvent Event)} {checkpoint : TurnResumePoint} {index : Nat}
    (inside : events <+: more) (found : resumeIndex events checkpoint = some index) :
    resumeIndex more checkpoint = some index := by
  obtain ⟨rest, rfl⟩ := inside
  unfold resumeIndex at found ⊢
  split at found
  · rename_i empty
    rw [if_pos empty]
    exact found
  · rename_i named
    rw [if_neg named, List.findIdx?_append]
    obtain ⟨i, at_, rfl⟩ := Option.map_eq_some_iff.mp found
    rw [at_]
    rfl

/-! ### One change -/

section
variable {options : DurableOptions Event} {workerId : JsString} {r next : DurableTurnRecord Event} {outside : Outside Event}
  {mutation : Mutation Event}

theorem ownedBy_eq {lease : Int} (given : r.lease = some ⟨workerId, lease⟩) {w : JsString} (owned : r.ownedBy w = true) :
    w = workerId := by
  rw [DurableTurnRecord.ownedBy, given, Option.any_some, beq_iff_eq] at owned
  exact owned.symm

/-- A plain change keeps the events, and a worker that owns the record afterwards owned it before. -/
theorem plain_written (plain : mutation.isPlain = true) (written : mutate options workerId r outside mutation = .next next) :
    next.events = r.events ∧ ∀ w, next.ownedBy w = true → r.ownedBy w = true := by
  cases mutation with
  | claim => cases plain
  | ready attempt =>
    simp only [mutate] at written
    split at written
    · cases written
    · rename_i current
      simp only [Bool.or_eq_true, not_or, Bool.not_eq_true, Bool.not_eq_false'] at current
      obtain ⟨expiresAt, rfl⟩ := leased_eq_next written
      exact ⟨rfl, fun w owned => ownedBy_eq rfl owned ▸ current.1.2⟩
  | renewPreparation attempt =>
    simp only [mutate] at written
    split at written
    · cases written
    · split at written
      · cases written
      · rename_i current
        simp only [Bool.or_eq_true, not_or, Bool.not_eq_true, Bool.not_eq_false'] at current
        split at written
        · cases written
        · obtain ⟨expiresAt, rfl⟩ := leased_eq_next written
          exact ⟨rfl, fun w owned => ownedBy_eq rfl owned ▸ current.1.2⟩
  | setDelegate turnId =>
    simp only [mutate] at written
    split at written
    · cases written
    · obtain rfl := stamped_eq_next written
      exact ⟨rfl, fun w => id⟩
  | renewLease =>
    simp only [mutate] at written
    split at written
    · cases written
    · rename_i current
      simp only [Bool.not_eq_true, Bool.not_eq_false'] at current
      obtain ⟨expiresAt, rfl⟩ := leased_eq_next written
      exact ⟨rfl, fun w owned => ownedBy_eq rfl owned ▸ current⟩
  | appendEvent checkpoint event => cases plain
  | settle result =>
    simp only [mutate, mutateSettle] at written
    split at written
    · cases written
    · split at written
      · cases written
      · obtain rfl := stamped_eq_next written
        refine ⟨rfl, fun _ owned => ?_⟩
        cases owned
  | cancel input =>
    simp only [mutate, mutateCancel] at written
    split at written
    · obtain rfl := stamped_eq_next written
      exact ⟨rfl, fun w => id⟩
    · cases written

theorem claim_written (written : mutate options workerId r outside .claim = .next next) :
    next.events = r.events ∧ ∀ w, next.ownedBy w = true → w = workerId := by
  simp only [mutate, mutateClaim] at written
  split at written
  · cases written
  · split at written
    · cases written
    · split at written
      · obtain rfl := stamped_eq_next written
        refine ⟨rfl, fun _ owned => ?_⟩
        cases owned
      · obtain ⟨expiresAt, rfl⟩ := leased_eq_next written
        exact ⟨rfl, fun w => ownedBy_eq rfl⟩

theorem append_written {checkpoint : TurnResumePoint} {event : Event}
    (written : mutate options workerId r outside (.appendEvent checkpoint event) = .next next) :
    r.ownedBy workerId = true ∧ next.events = r.events ++ [⟨r.events.length + 1, checkpoint, event⟩] ∧
      ∀ w, next.ownedBy w = true → w = workerId := by
  simp only [mutate] at written
  split at written
  · cases written
  · rename_i current
    simp only [Bool.not_eq_true, Bool.not_eq_false'] at current
    obtain ⟨expiresAt, rfl⟩ := leased_eq_next written
    exact ⟨current, rfl, fun w => ownedBy_eq rfl⟩

theorem append_changes {checkpoint : TurnResumePoint} {event : Event} :
    mutate options workerId r outside (.appendEvent checkpoint event) ≠ .unchanged := by
  intro same
  simp only [mutate, leased, stamped] at same
  split at same
  · cases same
  · split at same
    · split at same <;> cases same
    · cases same

/-- The record from which a worker dispatches its turn keeps its events and its cancellation. -/
theorem ready_written {attempt : Nat} (written : mutate options workerId r outside (.ready attempt) = .next next) :
    next.events = r.events ∧ next.cancellation = r.cancellation := by
  simp only [mutate] at written
  split at written
  · cases written
  · obtain ⟨expiresAt, rfl⟩ := leased_eq_next written
    exact ⟨rfl, rfl⟩

theorem ready_unchanged {attempt : Nat} (same : mutate options workerId r outside (.ready attempt) = .unchanged) :
    (terminalStatus r.status || !r.ownedBy workerId || r.attempt != attempt) = true := by
  simp only [mutate, leased, stamped] at same
  split at same
  · assumption
  · split at same
    · split at same <;> cases same
    · cases same

end

/-! ### The contract -/

def DurableTurnRecord.Continues (r later : DurableTurnRecord Event) : Prop := r.events <+: later.events

/-- A worker that owns a turn in the second store owned it in the first one, with the same events. -/
def KeepsOwner (workerId : JsString) (key : TurnKey) (s t : Documents TurnKey (DurableTurnRecord Event)) : Prop :=
  ∀ e, t key = some e → e.record.ownedBy workerId = true →
    ∃ d, s key = some d ∧ d.record.ownedBy workerId = true ∧ e.record.events = d.record.events

theorem KeepsOwner.trans {workerId : JsString} {key : TurnKey} {s t u : Documents TurnKey (DurableTurnRecord Event)}
    (st : KeepsOwner workerId key s t) (tu : KeepsOwner workerId key t u) : KeepsOwner workerId key s u := by
  intro f at_ owned
  obtain ⟨e, here, still, same⟩ := tu f at_ owned
  obtain ⟨d, there, before, equal⟩ := st e here still
  exact ⟨d, there, before, same.trans equal⟩

variable {record : DurableTurnRecord Event}

theorem KeepsOwner.put {workerId : JsString} {key k : TurnKey} {s : Documents TurnKey (DurableTurnRecord Event)}
    {d : Versioned (DurableTurnRecord Event)} (current : s key = some d) {version : Nat}
    (owned : k = key → record.ownedBy workerId = true →
      d.record.ownedBy workerId = true ∧ record.events = d.record.events) :
    KeepsOwner workerId k s (s.put key ⟨version, record⟩) := by
  intro e at_ owns
  by_cases here : k = key
  · subst here
    rw [Documents.put_self] at at_
    obtain rfl := Option.some.inj at_
    exact ⟨d, current, owned rfl owns⟩
  · rw [Documents.put_other s _ here] at at_
    exact ⟨e, at_, owns, rfl⟩

def AtPosition (entries : List (DurableTurnEvent Event)) (workerId : JsString) (key : TurnKey) (position : Nat)
    (s : Documents TurnKey (DurableTurnRecord Event)) : Prop :=
  ∀ d, s key = some d → d.record.ownedBy workerId = true → d.record.events = entries.take position

theorem AtPosition.stable {entries : List (DurableTurnEvent Event)} {workerId : JsString} {key : TurnKey} {position : Nat}
    {s t : Documents TurnKey (DurableTurnRecord Event)} (at_ : AtPosition entries workerId key position s)
    (keeps : KeepsOwner workerId key s t) : AtPosition entries workerId key position t := by
  intro e here owned
  obtain ⟨d, there, before, same⟩ := keeps e here owned
  rw [same]
  exact at_ d there before

def yieldedEvents (outputs : List (Output Event)) : List (DurableTurnEvent Event) :=
  outputs.filterMap fun
    | .yielded event => some event
    | _ => none

def Kind.Replays (sequences : TurnKey → List (DurableTurnEvent Event)) (outputs : List (Output Event)) : Kind → Prop
  | .observation key resumeFrom => ∃ start, resumeIndex (sequences key) resumeFrom = some start ∧
      yieldedEvents outputs <+: (sequences key).drop start
  | _ => True

def Label.Ready (sequences : TurnKey → List (DurableTurnEvent Event)) (outputs : List (Output Event))
    (s : Documents TurnKey (DurableTurnRecord Event)) : Label → Prop
  | .streaming workerId key position => AtPosition (sequences key) workerId key position s
  | .observing key resumeFrom index => ∃ start, resumeIndex (sequences key) resumeFrom = some start ∧
      start + (yieldedEvents outputs).length = index ∧ yieldedEvents outputs <+: (sequences key).drop start
  | _ => True

def Kind.Relies (s t : Documents TurnKey (DurableTurnRecord Event)) : Kind → Prop
  | .run workerId key => KeepsOwner workerId key s t
  | _ => True

def Kind.Reads (sequences : TurnKey → List Event) (outside : Outside Event) : Kind → Prop
  | .run _ key => outside.Replays (sequences key)
  | _ => True

def Mutation.FromBeginning (r : DurableTurnRecord Event) : Mutation Event → Prop
  | .ready _ => r.events = [] ∨ r.cancellation.isSome = true
  | _ => True

theorem KeepsOwner.refl (workerId : JsString) (key : TurnKey) (s : Documents TurnKey (DurableTurnRecord Event)) :
    KeepsOwner workerId key s s := fun e at_ owned => ⟨e, at_, owned, rfl⟩

theorem continues_refl (r : DurableTurnRecord Event) : r.Continues r := List.prefix_rfl

theorem continues_trans {a b c : DurableTurnRecord Event} (ab : a.Continues b) (bc : b.Continues c) : a.Continues c :=
  List.IsPrefix.trans ab bc

def replayContract (options : DurableOptions Event) (sequences : TurnKey → List Event) : Contract (durableCode options) where
  invariant s := ∀ key d, s key = some d → d.record.events <+: options.entries (sequences key)
  rely kind s t := Later DurableTurnRecord.Continues s t ∧ kind.Relies s t
  guarantee kind s t := Later DurableTurnRecord.Continues s t ∧
    ∀ workerId key, kind ≠ .run workerId key → KeepsOwner workerId key s t
  starts := Label.isFunction
  fair kind outside := kind.Reads sequences outside
  meets call s := DurableCall.Replaces s (fun mutation r => mutation.FromBeginning r) call
  pre label outputs s := label.Ready (fun key => options.entries (sequences key)) outputs s
  trace kind outputs _ := kind.Replays (fun key => options.entries (sequences key)) outputs
  rely_refl kind s := by
    refine ⟨Later.refl continues_refl s, ?_⟩
    cases kind with
    | run workerId key => exact KeepsOwner.refl workerId key s
    | _ => trivial
  rely_trans {kind s t u} st tu := by
    refine ⟨st.1.trans continues_trans tu.1, ?_⟩
    cases kind with
    | run workerId key => exact KeepsOwner.trans st.2 tu.2
    | _ => trivial
  relies {kind other s t} change _ shares := by
    refine ⟨change.1, ?_⟩
    cases other with
    | run workerId key =>
      refine change.2 workerId key fun same => ?_
      rcases shares with different | free
      · exact different same
      · rw [same] at free
        cases free
    | _ => trivial
  pre_stable {label _ _ _} pre change := by
    cases label with
    | streaming workerId key position => exact AtPosition.stable pre change.2
    | _ => exact pre
  trace_stable trace _ _ := trace
  start_pre {label _} _ _ := by
    cases label <;> trivial
  start_trace {label _} _ _ := by
    cases label <;> trivial

instance (options : DurableOptions Event) (sequences : TurnKey → List Event) :
    DecidablePred (replayContract options sequences).starts := inferInstanceAs (DecidablePred Label.isFunction)

instance [DecidableEq Event] (r : DurableTurnRecord Event) : (mutation : Mutation Event) → Decidable (mutation.FromBeginning r)
  | .ready _ => inferInstanceAs (Decidable (_ ∨ _))
  | .claim | .renewPreparation _ | .setDelegate _ | .renewLease | .appendEvent _ _ | .settle _ | .cancel _ =>
    .isTrue trivial

instance [DecidableEq Event] (options : DurableOptions Event) (sequences : TurnKey → List Event) (call : DurableCall Event)
    (s : Documents TurnKey (DurableTurnRecord Event)) : Decidable ((replayContract options sequences).meets call s) :=
  inferInstanceAs (Decidable (call.Replaces s fun mutation r => mutation.FromBeginning r))

section
variable {options : DurableOptions Event} {sequences : TurnKey → List Event} {workerId : JsString} {key : TurnKey}
  {kind : Kind} {outputs : List (Output Event)} {s t : Documents TurnKey (DurableTurnRecord Event)}

theorem guarantee_of_keeps (grows : Later DurableTurnRecord.Continues s t) (keeps : ∀ w k, KeepsOwner w k s t) :
    (replayContract options sequences).guarantee kind s t ∧ (replayContract options sequences).rely kind s t := by
  refine ⟨⟨grows, fun w k _ => keeps w k⟩, grows, ?_⟩
  cases kind with
  | run w k => exact keeps w k
  | _ => trivial

theorem put_kept (invariant : (replayContract options sequences).invariant t) {d : Versioned (DurableTurnRecord Event)}
    (at_ : t key = some d) (same : record.events = d.record.events)
    (owner : ∀ w, record.ownedBy w = true → d.record.ownedBy w = true) :
    let u := t.put key ⟨d.version + 1, record⟩
    (replayContract options sequences).invariant u ∧ (replayContract options sequences).guarantee kind t u ∧
      (replayContract options sequences).rely kind t u := by
  have continues : d.record.Continues record := by rw [DurableTurnRecord.Continues, same]
  exact ⟨forall_put (P := fun k (r : DurableTurnRecord Event) =>
    r.events <+: options.entries (sequences k)) invariant (same ▸ invariant key d at_),
    guarantee_of_keeps (Later.put continues_refl at_ continues) fun w k =>
      KeepsOwner.put at_ fun _ owned => ⟨owner w owned, same⟩⟩

theorem idle_kept (t : Documents TurnKey (DurableTurnRecord Event)) : (replayContract options sequences).guarantee kind t t :=
  ⟨Later.refl continues_refl t, fun w k _ => KeepsOwner.refl w k t⟩

/-- A plain update keeps the contract when its caller goes on safely from each of its ends. -/
theorem plain_update {mutation : Mutation Event} {next : Updated Event → DurableProgram Event}
    (plain : mutation.isPlain = true)
    (goes : ∀ updated t, (replayContract options sequences).rely kind s t →
      (replayContract options sequences).Safe kind (next updated) outputs t) :
    (replayContract options sequences).Safe kind (update options workerId key mutation next) outputs s := by
  refine safe_update _ idle_kept (fun since => Later.weaken since.1) ?_ ?_ ?_ ?_
  · intro t d outside record since invariant at_ _ changed _
    obtain ⟨same, owner⟩ := plain_written plain changed
    obtain ⟨kept, change, relied⟩ := put_kept invariant at_ same owner
    exact ⟨kept, change, goes _ _ ((replayContract options sequences).rely_trans since relied)⟩
  · exact fun t d _ since _ _ _ => goes _ t since
  · exact fun t since _ _ => goes _ t since
  · exact fun t cause since => goes _ t since

theorem plain_of_silent (silent : ∀ outputs : List (Output Event),
    kind.Replays (fun key => options.entries (sequences key)) outputs) : Plain (replayContract options sequences) kind where
  idle := idle_kept
  updates := plain_update
  silent outputs _ := silent outputs
  monitors _ _ _ _ := ⟨trivial, trivial⟩
  preparing _ _ _ _ _ := trivial
  runs _ _ _ := ⟨trivial, trivial⟩

theorem replay_run : Plain (replayContract options sequences) (.run workerId key) := plain_of_silent fun _ => trivial

theorem replay_request : Plain (replayContract options sequences) .request := plain_of_silent fun _ => trivial

theorem replay_monitor : Plain (replayContract options sequences) .monitor := plain_of_silent fun _ => trivial

theorem replay_cancellation {input : CancelTurnInput} : Plain (replayContract options sequences) (.cancellation input) :=
  plain_of_silent fun _ => trivial

/-! ### The worker -/

theorem runDispatch_replays (at_ : AtPosition (options.entries (sequences key)) workerId key 0 s) :
    (replayContract options sequences).Safe (.run workerId key) (runDispatch options workerId key) outputs s := by
  intro outside _
  dsimp only
  split
  · exact replay_run.settleRun _
  · exact replay_run.runFailed _
  · refine plain_update rfl fun updated t since => ?_
    cases updated with
    | thrown cause => exact replay_run.runFailed cause
    | returned document =>
      exact fun u later _ => ⟨trivial, trivial, fun _ => ⟨rfl, (at_.stable since.2).stable later.2⟩⟩

theorem runReady_replays (attempt : Nat) :
    (replayContract options sequences).Safe (.run workerId key) (runReady options workerId key attempt) outputs s := by
  unfold runReady
  refine safe_update _ idle_kept (fun since => Later.weaken since.1) ?_ ?_ ?_ ?_
  · intro t d outside record since invariant at_ _ changed first
    obtain ⟨same, cancellation⟩ := ready_written changed
    obtain ⟨kept, change, _⟩ : _ ∧ (replayContract options sequences).guarantee (.run workerId key) t _ ∧ _ :=
      put_kept invariant at_ same (plain_written rfl changed).2
    refine ⟨kept, change, ?_⟩
    dsimp only
    split
    · trivial
    · split
      · exact replay_run.settleRun _
      · -- Not cancelled, so the turn has no event yet.
        rename_i uncancelled
        have none : record.events = [] := by
          rw [cancellation] at uncancelled
          exact same.trans ((first d at_ rfl).resolve_right uncancelled)
        refine runDispatch_replays fun e here _ => ?_
        rw [Documents.put_self] at here
        obtain rfl := Option.some.inj here
        rw [none, List.take_zero]
  · intro t d outside _ _ _ unchanged
    dsimp only
    rw [if_pos (ready_unchanged unchanged)]
    trivial
  · exact fun _ _ _ _ => trivial
  · exact fun _ cause _ => replay_run.runFailed cause

/-- A change of a worker's own turn keeps the contract when it keeps the invariant. -/
theorem put_own (invariant : (replayContract options sequences).invariant t) {d : Versioned (DurableTurnRecord Event)}
    (at_ : t key = some d) (continues : d.record.events <+: record.events)
    (inside : record.events <+: options.entries (sequences key)) (owner : ∀ w, record.ownedBy w = true → w = workerId) :
    let u := t.put key ⟨d.version + 1, record⟩
    (replayContract options sequences).invariant u ∧
      (replayContract options sequences).guarantee (.run workerId key) t u := by
  refine ⟨forall_put (P := fun k (r : DurableTurnRecord Event) => r.events <+: options.entries (sequences k)) invariant inside,
    Later.put continues_refl at_ continues, fun w k other => KeepsOwner.put at_ fun here owned => ?_⟩
  exact (other (by rw [owner w owned, here])).elim

theorem run_replays :
    (replayContract options sequences).Safe (.run workerId key) (run options workerId key) outputs s := by
  have goes {next : Updated Event → DurableProgram Event} (each : ∀ updated t,
      (replayContract options sequences).Safe (.run workerId key) (next updated) outputs t) :
      (replayContract options sequences).Safe (.run workerId key) (update options workerId key .claim next) outputs s := by
    refine safe_update _ idle_kept (fun since => Later.weaken since.1) ?_ ?_ ?_ ?_
    · intro t d outside record since invariant at_ _ changed _
      obtain ⟨same, owner⟩ := claim_written changed
      obtain ⟨kept, change⟩ := put_own invariant at_ (same ▸ List.prefix_rfl) (same ▸ invariant key d at_) owner
      exact ⟨kept, change, each _ _⟩
    · exact fun t d _ _ _ _ _ => each _ t
    · exact fun t _ _ _ => each _ t
    · exact fun t cause _ => each _ t
  refine goes fun updated t => ?_
  match updated with
  | .thrown cause => exact replay_run.runFailed cause
  | .returned none => trivial
  | .returned (some claimed) =>
    dsimp only
    split
    · trivial
    · split
      · exact replay_run.settleRun _
      · refine fun u _ _ => ⟨trivial, trivial, fun _ outside _ => ?_⟩
        dsimp only
        split
        · exact replay_run.runFailed _
        · split
          · exact replay_run.runFailed _
          · exact runReady_replays _

theorem entries_take {position : Nat} {event : Event} {sequence : List Event} (next : sequence[position]? = some event) :
    (options.entries sequence).take position ++
      [⟨((options.entries sequence).take position).length + 1, options.checkpoint event, event⟩] =
        (options.entries sequence).take (position + 1) := by
  have at_ : (options.entries sequence)[position]? = some ⟨position + 1, options.checkpoint event, event⟩ := by
    rw [DurableOptions.entries, List.getElem?_mapIdx, next]
    rfl
  obtain ⟨inside, _⟩ := List.getElem?_eq_some_iff.mp at_
  rw [List.take_add_one, at_, List.length_take, Nat.min_eq_left inside.le]
  rfl

/-- Each event that a worker takes from the delegate is retained after the ones before it. -/
theorem streaming_replays {position : Nat} (at_ : AtPosition (options.entries (sequences key)) workerId key position s) :
    (replayContract options sequences).Safe (.run workerId key) (streaming options workerId key position) outputs s := by
  intro outside replays
  dsimp only
  split
  · rename_i event given
    have next : (sequences key)[position]? = some event := replays position event given
    split
    · exact replay_run.runFailed _
    · rename_i checkpoint normalized
      have checkpoint_eq : options.checkpoint event = checkpoint := by rw [DurableOptions.checkpoint, normalized]; rfl
      refine safe_update _ idle_kept (fun since => Later.weaken since.1) ?_ ?_ ?_ ?_
      · intro t d _ record since invariant here _ changed _
        obtain ⟨owned, appended, owner⟩ := append_written changed
        have before : d.record.events = (options.entries (sequences key)).take position :=
          at_.stable since.2 d here owned
        have after : record.events = (options.entries (sequences key)).take (position + 1) := by
          rw [appended, before, ← entries_take next, checkpoint_eq]
        obtain ⟨kept, change⟩ := put_own invariant here (appended ▸ List.prefix_append ..)
          (after ▸ List.take_prefix ..) owner
        refine ⟨kept, change, rfl, fun e at_ _ => ?_⟩
        rw [Documents.put_self] at at_
        obtain rfl := Option.some.inj at_
        exact after
      · exact fun t d _ _ _ _ same => (append_changes same).elim
      · intro t _ _ absent
        refine ⟨rfl, fun d here => ?_⟩
        rw [absent] at here
        cases here
      · exact fun t cause _ => replay_run.runFailed cause
  · exact replay_run.settleRun _
  · exact replay_run.runFailed _

/-! ### Observations -/

theorem yieldedEvents_append (outputs more : List (Output Event)) :
    yieldedEvents (outputs ++ more) = yieldedEvents outputs ++ yieldedEvents more := List.filterMap_append ..

theorem yieldedEvents_yielded (events : List (DurableTurnEvent Event)) :
    yieldedEvents (events.map .yielded) = events := by
  simp [yieldedEvents, List.filterMap_map]

theorem append_prefix_drop {α : Type} {first more whole : List α} {start : Nat} (before : first <+: whole.drop start)
    (after : more <+: whole.drop (start + first.length)) : first ++ more <+: whole.drop start := by
  obtain ⟨rest, split⟩ := before
  rw [← List.drop_drop, ← split, List.drop_left] at after
  rw [← split]
  exact (List.prefix_append_right_inj first).mpr after

/-- An observation yields the retained events from its index on, which are the next ones of the sequence. -/
theorem observing_replays {resumeFrom : TurnResumePoint} {index : Nat}
    (ready : Label.Ready (fun key => options.entries (sequences key)) outputs s (.observing key resumeFrom index)) :
    (replayContract options sequences).Safe (.observation key resumeFrom) (observing key resumeFrom index) outputs s := by
  obtain ⟨start, found, rfl, before⟩ := ready
  intro outside _
  dsimp only
  split
  · trivial
  · refine safe_load _ idle_kept fun t _ invariant => ?_
    split
    · trivial
    · rename_i current loaded
      have retained : current.record.events <+: options.entries (sequences key) := invariant key current loaded
      have onward {taken : List (DurableTurnEvent Event)}
          (prefix_ : taken <+: current.record.events.drop (start + (yieldedEvents outputs).length)) :
          yieldedEvents outputs ++ taken <+: (options.entries (sequences key)).drop start :=
        append_prefix_drop before (prefix_.trans (List.IsPrefix.drop retained _))
      refine safe_emitAll _ (fun u taken rest _ _ split => ?_) (fun u _ _ => ?_) invariant
      · obtain ⟨first, later, events, rfl, rfl⟩ := List.map_eq_append_iff.mp split
        refine ⟨start, found, ?_⟩
        rw [yieldedEvents_append, yieldedEvents_yielded]
        exact onward (events ▸ List.prefix_append ..)
      · split
        · refine fun _ _ _ => ⟨⟨start, found, ?_⟩, trivial⟩
          rw [yieldedEvents_append, yieldedEvents_append, yieldedEvents_yielded]
          simpa [yieldedEvents] using onward List.prefix_rfl
        · refine ⟨rfl, start, found, ?_, ?_⟩
          · rw [yieldedEvents_append, yieldedEvents_yielded, List.length_append, List.length_drop]
            omega
          · rw [yieldedEvents_append, yieldedEvents_yielded]
            exact onward List.prefix_rfl

/-! ### The functions -/

theorem create_kept (none : record.events = []) (free : record.lease = .none)
    (invariant : (replayContract options sequences).invariant t) (absent : t key = .none) :
    let u := t.put key ⟨1, record⟩
    (replayContract options sequences).invariant u ∧ (replayContract options sequences).guarantee kind t u := by
  refine ⟨forall_put (P := fun k (r : DurableTurnRecord Event) => r.events <+: options.entries (sequences k)) invariant
    (none ▸ List.nil_prefix), Later.create continues_refl absent _, fun w k _ e at_ owned => ?_⟩
  by_cases here : k = key
  · rw [here, Documents.put_self] at at_
    obtain rfl := Option.some.inj at_
    rw [DurableTurnRecord.ownedBy, free] at owned
    cases owned
  · exact ⟨e, (Documents.put_other t _ here).symm.trans at_, owned, rfl⟩

theorem cancelTurn_replays (input : CancelTurnInput) :
    (replayContract options sequences).Safe (.cancellation input) (cancelTurn options workerId input) outputs s := by
  refine safe_load _ idle_kept fun t _ _ => ?_
  have requested (u : Documents TurnKey (DurableTurnRecord Event)) :
      (replayContract options sequences).Safe (.cancellation input)
        (.spawn (.run workerId input.key) fun _ => answer .cancellationRequested) outputs u :=
    replay_cancellation.startsRun fun _ _ _ _ => replay_cancellation.answers _
  split
  · exact replay_cancellation.answers _
  · split
    · exact replay_cancellation.answers _
    · split
      · split
        · exact replay_cancellation.answers _
        · exact requested t
      · refine plain_update rfl fun updated u _ => ?_
        cases updated with
        | thrown cause => exact replay_cancellation.answers _
        | returned document => exact requested u

theorem cancelTurnBeforeStart_replays (input : CancelTurnInput) :
    (replayContract options sequences).Safe (.cancellation input) (cancelTurnBeforeStart workerId input) outputs s := by
  intro outside _
  dsimp only
  split
  · exact replay_cancellation.answers _
  · split
    · exact replay_cancellation.answers _
    · rename_i requestedAt _
      have goes (created : Bool × Versioned (DurableTurnRecord Event)) (t : Documents TurnKey (DurableTurnRecord Event)) :
          (replayContract options sequences).Safe (.cancellation input)
            (if created.1 || durableApplicationTurnStartMatches created.2.record (reservedRecord input requestedAt) then
              answer .alreadyTerminal
            else .jump (.cancelTurn workerId input)) outputs t := by
        split
        · exact replay_cancellation.answers _
        · exact ⟨rfl, trivial⟩
      intro t _ invariant _
      rcases create_cases t input.key (reservedRecord input requestedAt) with ⟨current, _, found⟩ | ⟨absent, created⟩
      · rw [show (durableCode options).perform (.create _ _) t = _ from found]
        exact ⟨invariant, idle_kept t, goes (false, current) t⟩
      · rw [show (durableCode options).perform (.create _ _) t = _ from created]
        have fresh : (reservedRecord input requestedAt : DurableTurnRecord Event).events = [] := rfl
        obtain ⟨kept, change⟩ := create_kept fresh rfl invariant absent
        exact ⟨kept, change, goes (true, ⟨1, reservedRecord input requestedAt⟩) _⟩

theorem replayContract_verified (options : DurableOptions Event) (sequences : TurnKey → List Event) :
    (replayContract options sequences).Verified := by
  intro label outputs s ready
  cases label with
  | startTurn workerId input =>
    refine replay_request.startTurn (fun request fingerprint createdAt t kept absent => ?_) fun t _ => ?_
    · exact create_kept rfl rfl kept absent
    · exact ⟨⟨0, rfl, rfl, List.nil_prefix⟩, ⟨0, rfl, List.nil_prefix⟩⟩
  | cancelTurn workerId input => exact cancelTurn_replays input
  | cancelTurnBeforeStart workerId input => exact cancelTurnBeforeStart_replays input
  | resumeTurn workerId key resumeFrom =>
    refine replay_request.resumeTurn fun t d index kept at_ start u _ _ => ?_
    have found := resumeIndex_prefix (kept key d at_) start
    exact ⟨⟨index, found, rfl, List.nil_prefix⟩, ⟨index, found, List.nil_prefix⟩⟩
  | recoverTurn workerId key => exact replay_request.recoverTurn
  | run workerId key => exact run_replays
  | streaming workerId key position => exact streaming_replays ready
  | preparing workerId key attempt => exact replay_monitor.preparingLoop attempt
  | monitor workerId key => exact replay_monitor.monitorLoop
  | observing key resumeFrom index => exact observing_replays ready

end

/-! ### Chains of observations -/

def resumePoint (resumeFrom : TurnResumePoint) (seen : List (DurableTurnEvent Event)) : TurnResumePoint :=
  (seen.getLast?.map DurableTurnEvent.checkpoint).getD resumeFrom

def Resumes (key : TurnKey) : TurnResumePoint → List (Process (DurableCall Event) StoreReply (Outside Event) Label
    (Output Event) Kind) → Prop
  | _, [] => True
  | resumeFrom, p :: rest =>
    p.kind = .observation key resumeFrom ∧ Resumes key (resumePoint resumeFrom (yieldedEvents p.outputs)) rest

def ToldApart (entries : List (DurableTurnEvent Event)) : Prop :=
  ∀ i entry, entries[i]? = some entry → resumeIndex entries entry.checkpoint = some (i + 1)

theorem Resumes.prefix_ {entries : List (DurableTurnEvent Event)} (apart : ToldApart entries) {key : TurnKey}
    {sequences : TurnKey → List (DurableTurnEvent Event)} (same : sequences key = entries)
    {observations : List (Process (DurableCall Event) StoreReply (Outside Event) Label (Output Event) Kind)}
    {resumeFrom : TurnResumePoint} {start : Nat} (found : resumeIndex entries resumeFrom = some start)
    (resumes : Resumes key resumeFrom observations) (replays : ∀ p ∈ observations, p.kind.Replays sequences p.outputs) :
    observations.flatMap (fun p => yieldedEvents p.outputs) <+: entries.drop start := by
  subst same
  induction observations generalizing resumeFrom start with
  | nil => exact List.nil_prefix
  | cons p rest ih =>
    obtain ⟨kind, resumes⟩ := resumes
    have seen := replays p (List.mem_cons_self ..)
    rw [kind] at seen
    obtain ⟨start', found', seen⟩ := seen
    obtain rfl := Option.some.inj (found.symm.trans found')
    -- The next observation goes on behind the last entry that was seen.
    have next : resumeIndex (sequences key) (resumePoint resumeFrom (yieldedEvents p.outputs)) =
        some (start + (yieldedEvents p.outputs).length) := by
      rcases List.eq_nil_or_concat' (yieldedEvents p.outputs) with none | ⟨init, last, some⟩
      · rw [none]
        exact found
      · rw [some, resumePoint, List.getLast?_append, List.getLast?_singleton]
        obtain ⟨more, split⟩ := some ▸ seen
        refine (apart (start + init.length) last ?_).trans ?_
        · rw [← List.getElem?_drop, ← split]
          simp
        · simp [Nat.add_assoc]
    rw [List.flatMap_cons]
    exact append_prefix_drop seen (ih resumes (fun q member => replays q (List.mem_cons_of_mem _ member)) next)

/-! ### Runs -/

/-- Along every schedule that reads the delegate's sequences and dispatches turns only while they retain
nothing, the retained events of a turn are the first ones of its sequence, and so is what a chain of
observations from its beginning yields. -/
theorem turns_replayed {options : DurableOptions Event} {sequences : TurnKey → List Event}
    {actions : List (Action (Outside Event) Label)}
    (fromBeginning : (replayContract options sequences).AllMeet noTurns actions) :
    let s := (durableCode options).run noTurns actions
    (∀ key d, s.shared key = some d → d.record.events <+: options.entries (sequences key)) ∧
      ∀ key, ToldApart (options.entries (sequences key)) → ∀ observations, (∀ p ∈ observations, p ∈ s.processes) →
        Resumes key emptyCheckpoint observations →
        observations.flatMap (fun p => yieldedEvents p.outputs) <+: options.entries (sequences key) := by
  intro s
  have start : (replayContract options sequences).Holds noTurns := Contract.holds_start _ fun _ _ => nofun
  obtain ⟨holds, _⟩ := start.run (replayContract_verified options sequences) fromBeginning
  refine ⟨holds.invariant, fun key apart observations members resumes => ?_⟩
  have fromStart : resumeIndex (options.entries (sequences key)) emptyCheckpoint = some 0 := rfl
  have same : (fun key => options.entries (sequences key)) key = options.entries (sequences key) := rfl
  exact Resumes.prefix_ apart same fromStart resumes fun p member => holds.traces p (members p member)

/-! ### A recovered turn -/

def replayingOutside (sequence : List Nat) (time : Int) : Outside Nat where
  now _ := time
  stopped := false
  disconnected := false
  encoded := some (.null, js "request")
  decoded := none
  started := .started (js "delegate")
  item position := match sequence[position]? with
    | some event => .event event
    | none => .finished (.completed emptyCheckpoint none)

/-- Steps of one process, at one time. -/
def replayingTurns (process count : Nat) (time : Int) : List (Action (Outside Nat) Label) :=
  List.replicate count (.advance process (replayingOutside [0, 1] time))

/-- The first worker dispatches the turn and is gone; the second one recovers it. The observation of the first worker's
caller yields the first event and is disconnected, and a resumed one goes on after it. -/
def recoveredUnretained : List (Action (Outside Nat) Label) :=
  .start (.startTurn (js "first") sampleStart) :: replayingTurns 0 5 0 ++ replayingTurns 1 16 0 ++
    .start (.recoverTurn (js "second") sampleTurn) :: replayingTurns 5 4 20000 ++ replayingTurns 6 20 20000 ++
    replayingTurns 2 3 20000 ++ .advance 2 { replayingOutside [0, 1] 20000 with disconnected := true } ::
    replayingTurns 6 6 20000 ++ .start (.resumeTurn (js "second") sampleTurn ⟨some (js "event-0"), none, none⟩) ::
    replayingTurns 9 3 20000 ++ replayingTurns 10 3 20000

def retainedFirst : List (Action (Outside Nat) Label) :=
  .start (.startTurn (js "first") sampleStart) :: replayingTurns 0 5 0 ++ replayingTurns 1 18 0

def recoveredTurn : List (Action (Outside Nat) Label) :=
  .start (.recoverTurn (js "second") sampleTurn) :: replayingTurns 5 4 20000 ++ replayingTurns 6 18 20000

theorem replayingOutside_replays {outside : Outside Nat} {time : Int}
    (same : outside.item = (replayingOutside [0, 1] time).item) : outside.Replays [0, 1] := by
  intro position event given
  rw [same] at given
  unfold replayingOutside at given
  simp only at given
  split at given
  · cases given
    assumption
  · cases given

theorem replayingTurns_replay {i process count : Nat} {time : Int} {outside : Outside Nat}
    (member : .advance i outside ∈ replayingTurns process count time) : outside.Replays [0, 1] := by
  cases List.eq_of_mem_replicate member
  exact replayingOutside_replays rfl

theorem recoveredUnretained_replays {i : Nat} {outside : Outside Nat}
    (member : .advance i outside ∈ recoveredUnretained) : outside.Replays [0, 1] := by
  simp only [recoveredUnretained, List.cons_append, List.append_assoc, List.mem_cons, List.mem_append, reduceCtorEq,
    false_or, Action.advance.injEq] at member
  rcases member with _ | _ | _ | _ | _ | ⟨-, rfl⟩ | _ | _ | _
  case inr.inr.inr.inr.inr.inl => exact @replayingOutside_replays _ 20000 rfl
  all_goals exact replayingTurns_replay ‹_›

instance (entries : List (DurableTurnEvent Nat)) : Decidable (ToldApart entries) :=
  decidable_of_iff (∀ i (inside : i < entries.length), resumeIndex entries (entries.get ⟨i, inside⟩).checkpoint = some (i + 1))
    ⟨fun each i entry at_ => by
      obtain ⟨inside, rfl⟩ := List.getElem?_eq_some_iff.mp at_
      exact each i inside, fun told i inside => told i _ (List.getElem?_eq_getElem inside)⟩

instance decidableResumes (key : TurnKey) : (resumeFrom : TurnResumePoint) →
    (observations : List (Process (DurableCall Nat) StoreReply (Outside Nat) Label (Output Nat) Kind)) →
    Decidable (Resumes key resumeFrom observations)
  | _, [] => .isTrue trivial
  | resumeFrom, p :: rest =>
    have := decidableResumes key (resumePoint resumeFrom (yieldedEvents p.outputs)) rest
    inferInstanceAs (Decidable (_ ∧ _))

def Kind.isObservation : Kind → Bool
  | .observation .. => true
  | _ => false

/-- The recovered turn retains both events, and the chain of its observations yields both. -/
theorem turns_replayed_recovered :
    let s := (durableCode sampleDurableOptions).run noTurns recoveredUnretained
    ∃ d observations, s.shared sampleTurn = some d ∧ d.record.events.map DurableTurnEvent.event = [0, 1] ∧
      d.record.events <+: sampleDurableOptions.entries [0, 1] ∧ (∀ p ∈ observations, p ∈ s.processes) ∧
      Resumes sampleTurn emptyCheckpoint observations ∧
      (observations.map fun p => (yieldedEvents p.outputs).map DurableTurnEvent.event) = [[0], [1]] ∧
      observations.flatMap (fun p => yieldedEvents p.outputs) <+: sampleDurableOptions.entries [0, 1] := by
  have fair : (replayContract sampleDurableOptions fun _ => [0, 1]).AllMeet noTurns recoveredUnretained :=
    Contract.allMeet_of_fair _ (fun _ _ member kind => match kind with
      | .run _ _ => recoveredUnretained_replays member
      | .request | .cancellation _ | .monitor | .observation _ _ => trivial) (by decide +kernel)
  obtain ⟨retains, chains⟩ := turns_replayed fair
  have retained : (((durableCode sampleDurableOptions).run noTurns recoveredUnretained).shared sampleTurn).map
      (fun d => d.record.events.map DurableTurnEvent.event) = some [0, 1] := by decide +kernel
  have seen : Resumes sampleTurn emptyCheckpoint (((durableCode sampleDurableOptions).run noTurns
        recoveredUnretained).processes.filter fun p => p.kind.isObservation) ∧
      ((((durableCode sampleDurableOptions).run noTurns recoveredUnretained).processes.filter fun p =>
        p.kind.isObservation).map fun p => (yieldedEvents p.outputs).map DurableTurnEvent.event) = [[0], [1]] := by
    decide +kernel
  generalize (durableCode sampleDurableOptions).run noTurns recoveredUnretained = s at *
  obtain ⟨d, found, both⟩ := Option.map_eq_some_iff.mp retained
  have members : ∀ p ∈ s.processes.filter fun p => p.kind.isObservation, p ∈ s.processes := fun _ member =>
    (List.mem_filter.mp member).1
  exact ⟨d, _, found, both, retains sampleTurn d found, members, seen.1, seen.2,
    chains sampleTurn (by decide +kernel) _ members seen.1⟩

/-- The recovered turn retains the first event of the delegate twice. -/
theorem recovery_repeats :
    (∀ i outside, .advance i outside ∈ retainedFirst ++ recoveredTurn → outside.Replays [0, 1]) ∧
    ((sampleDurableOptions.entries [0, 1]).map DurableTurnEvent.checkpoint).Nodup ∧
    ∃ d, ((durableCode sampleDurableOptions).run noTurns (retainedFirst ++ recoveredTurn)).shared sampleTurn = some d ∧
      d.record.events.map DurableTurnEvent.event = [0, 0] := by
  have checked :
      (((durableCode sampleDurableOptions).run noTurns (retainedFirst ++ recoveredTurn)).shared sampleTurn).map
        (fun d => d.record.events.map DurableTurnEvent.event) = some [0, 0] := by decide +kernel
  refine ⟨fun i outside member => ?_, by decide +kernel, Option.map_eq_some_iff.mp checked⟩
  simp only [retainedFirst, recoveredTurn, List.cons_append, List.append_assoc, List.mem_cons, List.mem_append, reduceCtorEq,
    false_or] at member
  rcases member with _ | _ | _ | _ <;> exact replayingTurns_replay ‹_›

end Handrail.Transports

import Handrail.Transports.DurableContracts

/-!
# Safety of durable turns

As long as no cancellation is written over an ended turn or an earlier cancellation, and no exhausted
turn with a cancellation is claimed, ended turns stay as they are, cancelled turns end cancelled, and
attempts are bounded, under every schedule of the workers.
-/

namespace Handrail.Transports
open Js Concurrent Conversation

variable {Event : Type}

structure DurableTurnRecord.Sound (options : DurableOptions Event) (r : DurableTurnRecord Event) : Prop where
  attempts : r.attempt ≤ options.maximumAttempts
  released : terminalStatus r.status = true → r.lease = none
  cancelled : terminalStatus r.status = true → r.cancellation.isSome = true → r.status = .cancelled

structure DurableTurnRecord.Follows (r later : DurableTurnRecord Event) : Prop where
  ended : terminalStatus r.status = true → later = r
  cancellation : ∀ c ∈ r.cancellation, later.cancellation = some c

theorem DurableTurnRecord.Follows.refl (r : DurableTurnRecord Event) : r.Follows r := ⟨fun _ => rfl, fun _ => id⟩

theorem DurableTurnRecord.Follows.trans {a b c : DurableTurnRecord Event} (ab : a.Follows b) (bc : b.Follows c) :
    a.Follows c where
  ended terminal := by
    obtain rfl := ab.ended terminal
    exact bc.ended terminal
  cancellation x given := bc.cancellation x (ab.cancellation x given)

/-! ### One change -/

def Mutation.Careful (options : DurableOptions Event) (r : DurableTurnRecord Event) : Mutation Event → Prop
  | .cancel _ => terminalStatus r.status = false ∧ r.cancellation = none
  | .claim => r.attempt < options.maximumAttempts ∨ r.cancellation = none
  | _ => True

instance (options : DurableOptions Event) (r : DurableTurnRecord Event) :
    (mutation : Mutation Event) → Decidable (mutation.Careful options r)
  | .cancel _ => inferInstanceAs (Decidable (_ ∧ _ = none))
  | .claim => inferInstanceAs (Decidable (_ ∨ _ = none))
  | .ready _ | .renewPreparation _ | .setDelegate _ | .renewLease | .appendEvent _ _ | .settle _ => .isTrue trivial

section
variable {options : DurableOptions Event} {workerId : JsString} {r next : DurableTurnRecord Event} {outside : Outside Event}

theorem running_of_owned (sound : r.Sound options) (owned : r.ownedBy workerId = true) :
    terminalStatus r.status = false := by
  by_contra ended
  rw [Bool.not_eq_false] at ended
  simp [DurableTurnRecord.ownedBy, sound.released ended] at owned

/-- A change of a running turn that keeps its status, its cancellation and its attempts. -/
theorem follows_of_running (running : terminalStatus r.status = false) (sound : r.Sound options)
    (status : next.status = r.status) (cancellation : next.cancellation = r.cancellation)
    (attempt : next.attempt = r.attempt) : r.Follows next ∧ next.Sound options := by
  refine ⟨⟨fun ended => ?_, fun c given => by rw [cancellation]; exact given⟩, ⟨by rw [attempt]; exact sound.attempts, ?_, ?_⟩⟩
  · rw [running] at ended
    cases ended
  · rw [status, running]
    exact nofun
  · rw [status, running]
    exact nofun

theorem mutateClaim_follows (sound : r.Sound options) (careful : r.attempt < options.maximumAttempts ∨ r.cancellation = none)
    (written : mutateClaim options workerId r outside = .next next) : r.Follows next ∧ next.Sound options := by
  unfold mutateClaim at written
  simp only at written
  split at written
  · cases written
  · rename_i running
    split at written
    · cases written
    · split at written
      · rename_i exhausted
        have none : r.cancellation = none := careful.resolve_left (by omega)
        obtain rfl := stamped_eq_next written
        refine ⟨⟨fun ended => (running ended).elim, fun c given => given⟩, ⟨sound.attempts, fun _ => rfl, fun _ some => ?_⟩⟩
        simp [none] at some
      · rename_i more
        obtain ⟨expiresAt, rfl⟩ := leased_eq_next written
        refine ⟨⟨fun ended => (running ended).elim, fun c given => given⟩, ⟨?_, nofun, nofun⟩⟩
        simp only
        omega

theorem mutateSettle_follows {result : TurnObservationResult} (sound : r.Sound options)
    (written : mutateSettle workerId result r outside = .next next) : r.Follows next ∧ next.Sound options := by
  unfold mutateSettle at written
  split at written
  · cases written
  · rename_i running
    split at written
    · cases written
    · obtain rfl := stamped_eq_next written
      refine ⟨⟨fun ended => (running ended).elim, fun c given => given⟩, ⟨sound.attempts, fun _ => rfl, fun _ some => ?_⟩⟩
      have cancelled : (r.cancellation.isSome || result.isCancelled) =
        true := by simp [show r.cancellation.isSome = true from some]
      simp only [settlement, cancelled, ↓reduceIte]

variable {input : CancelTurnInput}

theorem mutateCancel_follows (sound : r.Sound options)
    (running : terminalStatus r.status = false) (uncancelled : r.cancellation = none)
    (written : mutateCancel input r outside = .next next) :
    r.Follows next ∧ next.Sound options ∧ ∃ c, next.cancellation = some c ∧
      c.idempotencyKey = input.idempotencyKey ∧ c.fingerprint = cancellationFingerprint input := by
  unfold mutateCancel at written
  split at written
  · obtain rfl := stamped_eq_next written
    refine ⟨⟨fun ended => ?_, fun c given => ?_⟩, ⟨sound.attempts, ?_, ?_⟩, _, rfl, rfl, rfl⟩
    · rw [running] at ended
      cases ended
    · rw [uncancelled] at given
      cases given
    · simp [running]
    · simp [running]
  · cases written

theorem mutate_follows {mutation : Mutation Event} (sound : r.Sound options) (careful : mutation.Careful options r)
    (written : mutate options workerId r outside mutation = .next next) : r.Follows next ∧ next.Sound options := by
  cases mutation with
  | claim => exact mutateClaim_follows sound careful written
  | ready attempt =>
    simp only [mutate] at written
    split at written
    · cases written
    · rename_i current
      simp only [Bool.or_eq_true, not_or, Bool.not_eq_true] at current
      obtain ⟨expiresAt, rfl⟩ := leased_eq_next written
      exact follows_of_running current.1.1 sound rfl rfl rfl
  | renewPreparation attempt =>
    simp only [mutate] at written
    split at written
    · cases written
    · split at written
      · cases written
      · rename_i current
        simp only [Bool.or_eq_true, not_or, Bool.not_eq_true] at current
        split at written
        · cases written
        · obtain ⟨expiresAt, rfl⟩ := leased_eq_next written
          exact follows_of_running current.1.1 sound rfl rfl rfl
  | setDelegate turnId =>
    simp only [mutate] at written
    split at written
    · cases written
    · rename_i owned
      rw [Bool.not_eq_true, Bool.not_eq_false'] at owned
      have running := running_of_owned sound owned
      obtain rfl := stamped_eq_next written
      exact follows_of_running running sound rfl rfl rfl
  | renewLease =>
    simp only [mutate] at written
    split at written
    · cases written
    · rename_i owned
      rw [Bool.not_eq_true, Bool.not_eq_false'] at owned
      have running := running_of_owned sound owned
      obtain ⟨expiresAt, rfl⟩ := leased_eq_next written
      exact follows_of_running running sound rfl rfl rfl
  | appendEvent checkpoint event =>
    simp only [mutate] at written
    split at written
    · cases written
    · rename_i owned
      rw [Bool.not_eq_true, Bool.not_eq_false'] at owned
      have running := running_of_owned sound owned
      obtain ⟨expiresAt, rfl⟩ := leased_eq_next written
      exact follows_of_running running sound rfl rfl rfl
  | settle result => exact mutateSettle_follows sound written
  | cancel input =>
    obtain ⟨follows, kept, _⟩ := mutateCancel_follows sound careful.1 careful.2 written
    exact ⟨follows, kept⟩

end

/-! ### The contract -/

def Retains (s : Documents TurnKey (DurableTurnRecord Event)) (input : CancelTurnInput) : Prop :=
  ∃ d, s input.key = some d ∧ ∃ c, d.record.cancellation = some c ∧ c.idempotencyKey = input.idempotencyKey ∧
    c.fingerprint = cancellationFingerprint input

theorem Retains.later {s t : Documents TurnKey (DurableTurnRecord Event)}
    (retains : Retains s input) (later : Later DurableTurnRecord.Follows s t) : Retains t input := by
  obtain ⟨d, at_, c, given, same⟩ := retains
  obtain ⟨e, here, _, _, follows⟩ := later _ d at_
  exact ⟨e, here, c, follows.cancellation c given, same⟩

def Kind.Promises (s : Documents TurnKey (DurableTurnRecord Event)) (outputs : List (Output Event)) : Kind → Prop
  | .cancellation input => .answered .cancellationRequested ∈ outputs → Retains s input
  | _ => True

theorem Kind.promises_nil (s : Documents TurnKey (DurableTurnRecord Event)) (kind : Kind) : kind.Promises s [] := by
  cases kind with
  | cancellation input => exact fun answered => (List.not_mem_nil answered).elim
  | _ => trivial

def Label.Quiet (outputs : List (Output Event)) : Label → Prop
  | .cancelTurn .. | .cancelTurnBeforeStart .. => outputs = []
  | _ => True

def durableContract (options : DurableOptions Event) : Contract (durableCode options) where
  invariant s := ∀ key d, s key = some d → d.record.Sound options
  rely _ := Later DurableTurnRecord.Follows
  guarantee _ := Later DurableTurnRecord.Follows
  starts := Label.isFunction
  fair _ _ := True
  meets op s := DurableCall.Replaces s (fun mutation r => mutation.Careful options r) op
  pre label outputs _ := label.Quiet outputs
  trace kind outputs s := kind.Promises s outputs
  rely_refl _ := Later.refl DurableTurnRecord.Follows.refl
  rely_trans := Later.trans DurableTurnRecord.Follows.trans
  relies change _ _ := change
  pre_stable pre _ := pre
  trace_stable {kind _ _ _ _} promises _ change := by
    cases kind with
    | cancellation input => exact fun answered => (promises answered).later change
    | _ => trivial
  start_pre {label _} _ _ := by cases label <;> trivial
  start_trace _ _ := Kind.promises_nil ..

instance (options : DurableOptions Event) : DecidablePred (durableContract options).starts :=
  inferInstanceAs (DecidablePred Label.isFunction)

instance (options : DurableOptions Event) (kind : Kind) (outside : Outside Event) :
    Decidable ((durableContract options).fair kind outside) := .isTrue trivial

instance (options : DurableOptions Event) (call : DurableCall Event) (s : Documents TurnKey (DurableTurnRecord Event)) :
    Decidable ((durableContract options).meets call s) :=
  inferInstanceAs (Decidable (call.Replaces s fun mutation r => mutation.Careful options r))

section
variable {options : DurableOptions Event} {workerId : JsString} {key : TurnKey} {kind : Kind}
  {outputs : List (Output Event)} {s : Documents TurnKey (DurableTurnRecord Event)}

theorem update_safe {mutation : Mutation Event} {next : Updated Event → DurableProgram Event}
    (goes : ∀ updated t, Later DurableTurnRecord.Follows s t →
      (durableContract options).Safe kind (next updated) outputs t) :
    (durableContract options).Safe kind (update options workerId key mutation next) outputs s := by
  refine safe_update _ (Later.refl DurableTurnRecord.Follows.refl) Later.weaken ?_ ?_ ?_ ?_
  · intro t d outside record since invariant at_ _ changed careful
    obtain ⟨follows, sound⟩ := mutate_follows (invariant key d at_) (careful d at_ rfl) changed
    have grows := Later.put DurableTurnRecord.Follows.refl at_ follows
    exact ⟨forall_put invariant sound, grows, goes _ _ (since.trans DurableTurnRecord.Follows.trans grows)⟩
  · exact fun t d _ since _ _ _ => goes _ t since
  · exact fun t since _ _ => goes _ t since
  · exact fun t cause since => goes _ t since

theorem plain_of_free (free : ∀ s (outputs : List (Output Event)), kind.Promises s outputs) :
    Plain (durableContract options) kind where
  idle := Later.refl DurableTurnRecord.Follows.refl
  updates _ goes := update_safe goes
  silent outputs t := free t outputs
  monitors _ _ _ _ := ⟨trivial, trivial⟩
  preparing _ _ _ _ _ := trivial
  runs _ _ _ := ⟨trivial, trivial⟩

theorem plain_run : Plain (durableContract options) (.run workerId key) := plain_of_free fun _ _ => trivial

theorem plain_request : Plain (durableContract options) .request := plain_of_free fun _ _ => trivial

theorem plain_monitor : Plain (durableContract options) .monitor := plain_of_free fun _ _ => trivial

theorem runDispatch_safe :
    (durableContract options).Safe (.run workerId key) (runDispatch options workerId key) outputs s := by
  intro outside _
  dsimp only
  split
  · exact plain_run.settleRun _
  · exact plain_run.runFailed _
  · refine update_safe fun updated t _ => ?_
    cases updated with
    | thrown cause => exact plain_run.runFailed cause
    | returned document => exact fun _ _ _ => ⟨trivial, trivial, fun _ => ⟨rfl, trivial⟩⟩

theorem runReady_safe (attempt : Nat) :
    (durableContract options).Safe (.run workerId key) (runReady options workerId key attempt) outputs s := by
  refine update_safe fun updated t _ => ?_
  match updated with
  | .thrown cause => exact plain_run.runFailed cause
  | .returned none => trivial
  | .returned (some ready) =>
    dsimp only
    split
    · trivial
    · split
      · exact plain_run.settleRun _
      · exact runDispatch_safe

theorem run_safe : (durableContract options).Safe (.run workerId key) (run options workerId key) outputs s := by
  refine update_safe fun updated t _ => ?_
  match updated with
  | .thrown cause => exact plain_run.runFailed cause
  | .returned none => trivial
  | .returned (some claimed) =>
    dsimp only
    split
    · trivial
    · split
      · exact plain_run.settleRun _
      · refine fun u _ _ => ⟨trivial, trivial, fun _ outside _ => ?_⟩
        dsimp only
        split
        · exact plain_run.runFailed _
        · split
          · exact plain_run.runFailed _
          · exact runReady_safe _

theorem streaming_safe (position : Nat) :
    (durableContract options).Safe (.run workerId key) (streaming options workerId key position) outputs s := by
  intro outside _
  dsimp only
  split
  · split
    · exact plain_run.runFailed _
    · refine update_safe fun updated t _ => ?_
      cases updated with
      | thrown cause => exact plain_run.runFailed cause
      | returned document => exact ⟨rfl, trivial⟩
  · exact plain_run.settleRun _
  · exact plain_run.runFailed _

theorem observing_safe (resumeFrom : TurnResumePoint) (index : Nat) :
    (durableContract options).Safe (.observation key resumeFrom) (observing key resumeFrom index) outputs s := by
  intro outside _
  dsimp only
  split
  · trivial
  · refine safe_load _ (Later.refl DurableTurnRecord.Follows.refl) fun t _ invariant => ?_
    split
    · trivial
    · refine safe_emitAll _ (fun _ _ _ _ _ _ => trivial) (fun u _ _ => ?_) invariant
      split
      · exact fun _ _ _ => ⟨trivial, trivial⟩
      · exact ⟨rfl, trivial⟩

theorem create_safe {record : DurableTurnRecord Event} (sound : record.Sound options)
    {next : Bool × Versioned (DurableTurnRecord Event) → DurableProgram Event}
    (goes : ∀ created t, (durableContract options).Safe kind (next created) outputs t) :
    (durableContract options).Safe kind (.call (.create key record) next) outputs s := by
  intro t since invariant _
  rcases create_cases t key record with ⟨current, _, found⟩ | ⟨absent, created⟩
  · rw [show (durableCode options).perform (.create key record) t = _ from found]
    exact ⟨invariant, Later.refl DurableTurnRecord.Follows.refl t, goes _ t⟩
  · rw [show (durableCode options).perform (.create key record) t = _ from created]
    exact ⟨forall_put invariant sound, Later.create DurableTurnRecord.Follows.refl absent _, goes _ _⟩

theorem pendingRecord_sound (input : StartTurnInput) (request : Json) (fingerprint : JsString) (createdAt : Int) :
    (pendingRecord input request fingerprint createdAt : DurableTurnRecord Event).Sound options where
  attempts := Nat.zero_le _
  released ended := absurd ended Bool.false_ne_true
  cancelled ended := absurd ended Bool.false_ne_true

theorem other_answer_safe {value : Answer} (other : value ≠ .cancellationRequested) :
    (durableContract options).Safe (.cancellation input) (answer value) [] s := by
  refine fun _ _ _ => ⟨fun answered => ?_, trivial⟩
  simp only [List.nil_append, List.mem_singleton, Output.answered.injEq] at answered
  exact (other answered.symm).elim

theorem requested_safe (retains : Retains s input) :
    (durableContract options).Safe (.cancellation input)
      (.spawn (.run workerId input.key) fun _ => answer .cancellationRequested) [] s :=
  fun _ since _ => ⟨trivial, trivial, fun _ _ later _ =>
    ⟨fun _ => retains.later (since.trans DurableTurnRecord.Follows.trans later), trivial⟩⟩

theorem cancelTurn_safe (input : CancelTurnInput) :
    (durableContract options).Safe (.cancellation input) (cancelTurn options workerId input) [] s := by
  refine safe_load _ (Later.refl DurableTurnRecord.Follows.refl) fun t _ _ => ?_
  split
  · exact other_answer_safe nofun
  · rename_i current loaded
    split
    · exact other_answer_safe nofun
    · split
      · rename_i cancellation given
        split
        · exact other_answer_safe nofun
        · rename_i same
          simp only [Bool.or_eq_true, not_or, bne_iff_ne, ne_eq, not_not] at same
          exact requested_safe ⟨current, loaded, cancellation, given, same⟩
      · -- Only the written record ends the update with an answer that promises something.
        refine safe_update _ (Later.refl DurableTurnRecord.Follows.refl) Later.weaken ?_ ?_ ?_ ?_
        · intro u d outside record since invariant at_ _ changed careful
          obtain ⟨running, uncancelled⟩ := careful d at_ rfl
          obtain ⟨follows, sound, retained⟩ := mutateCancel_follows (invariant _ d at_) running uncancelled changed
          exact ⟨forall_put invariant sound, Later.put DurableTurnRecord.Follows.refl at_ follows,
            requested_safe ⟨_, Documents.put_self .., retained⟩⟩
        · intro u d outside _ _ _ same
          simp only [mutate, mutateCancel, stamped] at same
          split at same
          · split at same <;> cases same
          · cases same
        · intro u since _ absent
          obtain ⟨d, here, _⟩ := since _ current loaded
          rw [absent] at here
          cases here
        · exact fun u cause _ => other_answer_safe nofun

theorem cancelTurnBeforeStart_safe (input : CancelTurnInput) :
    (durableContract options).Safe (.cancellation input) (cancelTurnBeforeStart workerId input) [] s := by
  intro outside _
  dsimp only
  split
  · exact other_answer_safe nofun
  · split
    · exact other_answer_safe nofun
    · refine create_safe ⟨Nat.zero_le _, fun _ => rfl, fun _ _ => rfl⟩ fun created t => ?_
      dsimp only
      split
      · exact other_answer_safe nofun
      · exact ⟨rfl, rfl⟩

theorem durableContract_verified (options : DurableOptions Event) : (durableContract options).Verified := by
  intro label outputs s quiet
  cases label with
  | startTurn workerId input =>
    refine plain_request.startTurn (fun request fingerprint createdAt t kept absent => ?_)
      fun _ _ => ⟨trivial, trivial⟩
    exact ⟨forall_put kept (pendingRecord_sound ..), Later.create DurableTurnRecord.Follows.refl absent _⟩
  | cancelTurn workerId input =>
    obtain rfl : outputs = [] := quiet
    exact cancelTurn_safe input
  | cancelTurnBeforeStart workerId input =>
    obtain rfl : outputs = [] := quiet
    exact cancelTurnBeforeStart_safe input
  | resumeTurn workerId key resumeFrom =>
    exact plain_request.resumeTurn fun _ _ _ _ _ _ _ _ _ => ⟨trivial, trivial⟩
  | recoverTurn workerId key => exact plain_request.recoverTurn
  | run workerId key => exact run_safe
  | streaming workerId key position => exact streaming_safe position
  | preparing workerId key attempt => exact plain_monitor.preparingLoop attempt
  | monitor workerId key => exact plain_monitor.monitorLoop
  | observing key resumeFrom index => exact observing_safe resumeFrom index

end

/-! ### Runs -/

structure DurableTurnRecord.Kept (options : DurableOptions Event) (r later : DurableTurnRecord Event) : Prop where
  ended : terminalStatus r.status = true → later = r
  cancelled : terminalStatus r.status = false → r.cancellation.isSome = true → terminalStatus later.status = true →
    later.status = .cancelled
  attempts : later.attempt ≤ options.maximumAttempts

/-- Along every schedule whose changes are careful, records are kept, and a cancellation that was answered
to be requested is the one retained. -/
theorem durable_turns_safe {options : DurableOptions Event} {first rest : List (Action (Outside Event) Label)}
    (careful : (durableContract options).AllMeet noTurns (first ++ rest)) :
    let s := (durableCode options).run noTurns first
    let t := (durableCode options).run noTurns (first ++ rest)
    (∀ key d, s.shared key = some d → ∃ e, t.shared key = some e ∧ d.record.Kept options e.record) ∧
      ∀ p ∈ t.processes, ∀ input, p.kind = .cancellation input → .answered .cancellationRequested ∈ p.outputs →
        Retains t.shared input := by
  intro s t
  have start : (durableContract options).Holds noTurns := Contract.holds_start _ fun _ _ => nofun
  obtain ⟨before, after⟩ := (Contract.allMeet_append _).mp careful
  obtain ⟨holds, _⟩ := start.run (durableContract_verified options) before
  obtain ⟨holds', changes⟩ := holds.run (durableContract_verified options) after
  have same : (durableCode options).run s rest = t := (List.foldl_append ..).symm
  rw [show (durableCode options).run ((durableCode options).run noTurns first) rest = t from same] at holds' changes
  have later : Later DurableTurnRecord.Follows s.shared t.shared := by
    refine Relation.ReflTransGen.trans_induction_on
      (motive := fun {a b} _ => Later DurableTurnRecord.Follows a b) changes ?_ ?_ ?_
    · exact Later.refl DurableTurnRecord.Follows.refl
    · exact fun ⟨_, _, change⟩ => change
    · exact fun _ _ ab bc => ab.trans DurableTurnRecord.Follows.trans bc
  refine ⟨fun key d at_ => ?_, fun p member input kind answered => ?_⟩
  · obtain ⟨e, here, _, _, follows⟩ := later key d at_
    have sound := holds'.invariant key e here
    refine ⟨e, here, follows.ended, fun _ some ended => ?_, sound.attempts⟩
    obtain ⟨c, given⟩ := Option.isSome_iff_exists.mp some
    exact sound.cancelled ended (Option.isSome_iff_exists.mpr ⟨c, follows.cancellation c given⟩)
  · have promises := holds'.traces p member
    rw [kind] at promises
    exact promises answered

/-! ### A late cancellation -/

def sampleDurableOptions : DurableOptions Nat where
  leaseMilliseconds := 15000
  pollMilliseconds := 250
  maximumAttempts := 3
  maximumCasAttempts := 12
  lease_range := by decide
  poll_range := by decide
  attempts_range := by decide
  cas_range := by decide
  checkpointForEvent event := some ⟨some (js "event-" ++ decimal event), none, none⟩

def refusingOutside : Outside Nat where
  now _ := 0
  stopped := false
  disconnected := false
  encoded := some (.null, js "request")
  decoded := none
  started := .failed ⟨.unavailable, js "Unavailable", true, none⟩
  item _ := .threw

def sampleTurn : TurnKey := ⟨js "conversation", js "turn"⟩

def sampleStart : StartTurnInput := ⟨sampleTurn, js "start", js "start"⟩

def sampleCancel : CancelTurnInput := ⟨sampleTurn, js "cancel", js "cancel", .user⟩

def settledBeforeCancel : List (Action (Outside Nat) Label) :=
  .start (.startTurn (js "first") sampleStart) :: List.replicate 3 (.advance 0 refusingOutside) ++
    [.start (.cancelTurn (js "second") sampleCancel), .advance 2 refusingOutside] ++
    List.replicate 12 (.advance 1 refusingOutside)

/-- The worker that settles its turn, with the cancellation still under way. -/
theorem durable_turns_safe_settled :
    let s := (durableCode sampleDurableOptions).run noTurns (settledBeforeCancel.take 8)
    let t := (durableCode sampleDurableOptions).run noTurns (settledBeforeCancel.take 8 ++ settledBeforeCancel.drop 8)
    (∀ key d, s.shared key = some d → ∃ e, t.shared key = some e ∧ d.record.Kept sampleDurableOptions e.record) ∧
      ∀ p ∈ t.processes, ∀ input, p.kind = .cancellation input → .answered .cancellationRequested ∈ p.outputs →
        Retains t.shared input :=
  durable_turns_safe (by decide +kernel)

/-- The cancellation then changes the record of the ended turn, which stays failed. -/
theorem late_cancellation_rewrites : ∃ d e,
    ((durableCode sampleDurableOptions).run noTurns settledBeforeCancel).shared sampleTurn = some d ∧
    ((durableCode sampleDurableOptions).run noTurns
      (settledBeforeCancel ++ List.replicate 5 (.advance 2 refusingOutside))).shared sampleTurn = some e ∧
    d.record.status = .failed ∧ e.record.status = .failed ∧ d.record.cancellation = none ∧
    e.record.cancellation.isSome = true := by
  have checked : (((durableCode sampleDurableOptions).run noTurns settledBeforeCancel).shared sampleTurn).any (fun d =>
      (((durableCode sampleDurableOptions).run noTurns
        (settledBeforeCancel ++ List.replicate 5 (.advance 2 refusingOutside))).shared sampleTurn).any fun e =>
        d.record.status == .failed && e.record.status == .failed && d.record.cancellation.isNone &&
          e.record.cancellation.isSome) = true := by decide +kernel
  obtain ⟨d, before, checked⟩ := (Option.any_eq_true ..).mp checked
  obtain ⟨e, after, checked⟩ := (Option.any_eq_true ..).mp checked
  simp only [Bool.and_eq_true, beq_iff_eq, Option.isNone_iff_eq_none] at checked
  exact ⟨d, e, before, after, checked.1.1.1, checked.1.1.2, checked.1.2, checked.2⟩

end Handrail.Transports

import Handrail.Transports.Durable

/-!
# Contracts of the durable transport

How the programs of the transport keep a contract: an update keeps it when each of its writes does,
and functions that only load, update and start others keep every contract that asks nothing more of them.
-/

namespace Handrail.Transports
open Js Concurrent Conversation

variable {Event : Type}

/-! ### Written records -/

section
variable {options : DurableOptions Event} {workerId : JsString} {r next : DurableTurnRecord Event}

theorem stamped_eq_next {time : Int} {record : Int → DurableTurnRecord Event} (written : stamped time record = .next next) :
    next = record time := by
  unfold stamped timestamp at written
  split at written
  · rename_i stamp given
    split at given
    · cases given
      cases written
      rfl
    · cases given
  · cases written

theorem leased_eq_next {time : Int} (written : leased options workerId time r = .next next) :
    ∃ expiresAt, next = { r with
      lease := some ⟨workerId, expiresAt⟩
      updatedAt := time } := by
  unfold leased at written
  split at written
  · exact ⟨_, stamped_eq_next written⟩
  · cases written

end

/-! ### Conditions of a schedule -/

def DurableCall.Replaces (s : Documents TurnKey (DurableTurnRecord Event)) (P : Mutation Event → DurableTurnRecord Event → Prop) :
    DurableCall Event → Prop
  | .write mutation key expected _ => ∀ d, s key = some d → d.version = expected → P mutation d.record
  | _ => True

instance (s : Documents TurnKey (DurableTurnRecord Event)) (P : Mutation Event → DurableTurnRecord Event → Prop)
    [∀ mutation r, Decidable (P mutation r)] : (call : DurableCall Event) → Decidable (call.Replaces s P)
  | .write mutation key expected _ =>
    decidable_of_iff (∀ d ∈ s key, d.version = expected → P mutation d.record) Iff.rfl
  | .load _ | .create _ _ => .isTrue trivial

def Label.isFunction : Label → Prop
  | .startTurn .. | .cancelTurn .. | .cancelTurnBeforeStart .. | .resumeTurn .. | .recoverTurn .. => True
  | _ => False

instance : DecidablePred Label.isFunction
  | .startTurn .. | .cancelTurn .. | .cancelTurnBeforeStart .. | .resumeTurn .. | .recoverTurn .. => .isTrue trivial
  | .run .. | .streaming .. | .preparing .. | .monitor .. | .observing .. => .isFalse id

/-! ### Loads and updates -/

section
variable {options : DurableOptions Event} (c : Contract (durableCode options)) {kind : Kind} {workerId : JsString}
  {key : TurnKey} {mutation : Mutation Event} {next : Updated Event → DurableProgram Event}
  {outputs : List (Output Event)} {s : Documents TurnKey (DurableTurnRecord Event)}

theorem safe_load (idle : ∀ t, c.guarantee kind t t) {next : Option (Versioned (DurableTurnRecord Event)) → DurableProgram Event}
    (each : ∀ t, c.rely kind s t → c.invariant t → c.Safe kind (next (t key)) outputs t) :
    c.Safe kind (.call (.load key) next) outputs s :=
  fun t later invariant _ => ⟨invariant, idle t, each t later invariant⟩

/-- An update keeps a contract when every write that it makes of a loaded record does, and when its
caller goes on safely from each of its ends. -/
theorem safe_update (idle : ∀ t, c.guarantee kind t t)
    (grows : ∀ {s t}, c.rely kind s t → Later (fun _ _ => True) s t)
    (written : ∀ t d outside record, c.rely kind s t → c.invariant t → t key = some d → c.fair kind outside →
      mutate options workerId d.record outside mutation = .next record →
      c.meets (.write mutation key d.version record) t →
      c.invariant (t.put key ⟨d.version + 1, record⟩) ∧ c.guarantee kind t (t.put key ⟨d.version + 1, record⟩) ∧
        c.Safe kind (next (.returned (some ⟨d.version + 1, record⟩))) outputs (t.put key ⟨d.version + 1, record⟩))
    (unchanged : ∀ t d outside, c.rely kind s t → c.invariant t → t key = some d →
      mutate options workerId d.record outside mutation = .unchanged →
      c.Safe kind (next (.returned (some d))) outputs t)
    (missing : ∀ t, c.rely kind s t → c.invariant t → t key = none → c.Safe kind (next (.returned none)) outputs t)
    (thrown : ∀ t cause, c.rely kind s t → c.Safe kind (next (.thrown cause)) outputs t) :
    c.Safe kind (update options workerId key mutation next) outputs s := by
  unfold update
  induction options.maximumCasAttempts generalizing s with
  | zero => exact thrown s .other (c.rely_refl ..)
  | succ attempts ih =>
    unfold updateWithin
    refine safe_load c idle fun t later invariant => ?_
    split
    · rename_i absent
      exact missing t later invariant absent
    · rename_i d loaded
      intro outside fair
      dsimp only
      split
      · rename_i same
        exact unchanged t d outside later invariant loaded same
      · rename_i cause _
        exact thrown t cause later
      · rename_i record changed
        intro u since valid meets
        have both := c.rely_trans later since
        -- The write finds the loaded document, or another one and the update starts again.
        rcases write_cases (grows since) loaded mutation record with conflict | ⟨current, success⟩
        · rw [show (durableCode options).perform (.write mutation key d.version record) u = _ from conflict]
          refine ⟨valid, idle u, ?_⟩
          exact ih (fun t' d' o r at_ => written t' d' o r (c.rely_trans both at_))
            (fun t' d' o at_ => unchanged t' d' o (c.rely_trans both at_))
            (fun t' at_ => missing t' (c.rely_trans both at_)) (fun t' cause at_ => thrown t' cause (c.rely_trans both at_))
        · rw [show (durableCode options).perform (.write mutation key d.version record) u = _ from success]
          exact written u d outside record both valid current fair changed meets

theorem safe_emitAll {values : List (Output Event)} {program : DurableProgram Event}
    (each : ∀ t taken rest, c.rely kind s t → c.invariant t → values = taken ++ rest →
      c.trace kind (outputs ++ taken) t)
    (last : ∀ t, c.rely kind s t → c.invariant t → c.Safe kind program (outputs ++ values) t) (invariant : c.invariant s) :
    c.Safe kind (.emitAll values program) outputs s := by
  induction values generalizing outputs s with
  | nil =>
    have done := last s (c.rely_refl ..) invariant
    rwa [List.append_nil] at done
  | cons value values ih =>
    intro t later valid
    refine ⟨each t [value] values later valid rfl, ih (fun u taken rest since kept split => ?_) (fun u since kept => ?_) valid⟩
    · have more := each u (value :: taken) rest (c.rely_trans later since) kept (by rw [split, List.cons_append])
      rwa [List.append_assoc]
    · have more := last u (c.rely_trans later since) kept
      rwa [List.append_assoc]

/-! ### Plain kinds -/

def Mutation.isPlain : Mutation Event → Bool
  | .claim | .appendEvent _ _ => false
  | _ => true

variable (kind) in
/-- A contract that leaves processes of a kind free to answer, to start others and to make plain changes. -/
structure Plain : Prop where
  idle : ∀ t, c.guarantee kind t t
  updates : ∀ {workerId key mutation next outputs s}, mutation.isPlain = true →
    (∀ updated t, c.rely kind s t → c.Safe kind (next updated) outputs t) →
    c.Safe kind (update options workerId key mutation next) outputs s
  silent : ∀ outputs t, c.trace kind outputs t
  monitors : ∀ workerId key outputs t, c.pre (.monitor workerId key) outputs t ∧ c.trace .monitor outputs t
  preparing : ∀ workerId key attempt outputs t, c.pre (.preparing workerId key attempt) outputs t
  runs : ∀ workerId key t, c.pre (.run workerId key) [] t ∧ c.trace (.run workerId key) [] t

namespace Plain
variable {c}

theorem answers (plain : Plain c kind) (value : Answer) : c.Safe kind (answer value) outputs s :=
  fun _ _ _ => ⟨plain.silent .., trivial⟩

theorem startsRun (plain : Plain c kind) {started : Bool → DurableProgram Event}
    (goes : ∀ value t, c.rely kind s t → c.invariant t → c.Safe kind (started value) outputs t) :
    c.Safe kind (.spawn (.run workerId key) started) outputs s :=
  fun t since invariant => ⟨(plain.runs ..).1, (plain.runs ..).2, fun value => goes value t since invariant⟩

theorem runFailed (plain : Plain c kind) (cause : Failure) :
    c.Safe kind (runFailed options workerId key cause) outputs s := by
  cases cause with
  | leaseLost => trivial
  | preparationCancelled | other => exact plain.updates rfl fun _ _ _ => trivial

theorem settleRun (plain : Plain c kind) (result : TurnObservationResult) :
    c.Safe kind (settleRun options workerId key result) outputs s := by
  refine plain.updates rfl fun updated t _ => ?_
  cases updated with
  | thrown cause => exact plain.runFailed cause
  | returned document => trivial

theorem preparingLoop (plain : Plain c .monitor) (attempt : Nat) :
    c.Safe .monitor (Transports.preparing options workerId key attempt) outputs s := by
  intro outside _
  dsimp only
  split
  · trivial
  · refine safe_load c plain.idle fun t _ _ outside _ => ?_
    dsimp only
    split
    · trivial
    · split
      · trivial
      · split
        · trivial
        · split
          · refine plain.updates rfl fun updated u _ => ?_
            cases updated with
            | thrown cause => trivial
            | returned document => exact ⟨rfl, plain.preparing ..⟩
          · exact ⟨rfl, plain.preparing ..⟩

theorem monitorLoop (plain : Plain c .monitor) : c.Safe .monitor (monitor options workerId key) outputs s := by
  intro outside _
  dsimp only
  split
  · trivial
  · refine safe_load c plain.idle fun t _ _ => ?_
    split
    · trivial
    · intro outside _
      dsimp only
      split
      · trivial
      · split
        · refine plain.updates rfl fun updated u _ => ?_
          cases updated with
          | thrown cause => trivial
          | returned document => exact ⟨rfl, (plain.monitors ..).1⟩
        · exact ⟨rfl, (plain.monitors ..).1⟩

theorem recoverTurn (plain : Plain c .request) : c.Safe .request (recoverTurn workerId key) outputs s := by
  unfold Transports.recoverTurn
  split
  · exact plain.answers _
  · refine safe_load c plain.idle fun t _ _ => ?_
    split
    · exact plain.answers _
    · intro outside _
      dsimp only
      split
      · exact plain.answers _
      · split
        · exact plain.answers _
        · exact plain.startsRun fun _ _ _ _ => plain.answers _

theorem resumeTurn (plain : Plain c .request) {resumeFrom : TurnResumePoint}
    (observes : ∀ t d index, c.invariant t → t key = some d → observationStart d.record resumeFrom = some index →
      ∀ u, c.rely .request t u → c.invariant u →
        c.pre (.observing key resumeFrom index) [] u ∧ c.trace (.observation key resumeFrom) [] u) :
    c.Safe .request (resumeTurn workerId key resumeFrom) outputs s := by
  unfold Transports.resumeTurn
  split
  · exact plain.answers _
  · refine safe_load c plain.idle fun t _ invariant => ?_
    split
    · exact plain.answers _
    · rename_i current loaded
      split
      · exact plain.answers _
      · rename_i index found
        have start : observationStart current.record resumeFrom = some index := by
          obtain ⟨checkpoint, normalized, found⟩ := Option.bind_eq_some_iff.mp found
          unfold normalizeCheckpoint at normalized
          split at normalized
          · cases normalized
            exact found
          · cases normalized
        have observe (u : Documents TurnKey (DurableTurnRecord Event)) (since : c.rely .request t u) :
            c.Safe .request (.spawn (.observing key resumeFrom index) fun _ => answer .resumed) outputs u :=
          fun v later kept =>
            have ⟨pre, trace⟩ := observes t current index invariant loaded start v (c.rely_trans since later) kept
            ⟨pre, trace, fun _ => plain.answers _⟩
        dsimp only
        split
        · exact observe t (c.rely_refl ..)
        · exact plain.startsRun fun _ u since _ => observe u since

theorem startTurn (plain : Plain c .request) {input : StartTurnInput}
    (creates : ∀ request fingerprint createdAt t, c.invariant t → t input.key = none →
      let created := t.put input.key ⟨1, pendingRecord input request fingerprint createdAt⟩
      c.invariant created ∧ c.guarantee .request t created)
    (observes : ∀ t, c.invariant t → c.pre (.observing input.key emptyCheckpoint 0) [] t ∧
      c.trace (.observation input.key emptyCheckpoint) [] t) :
    c.Safe .request (startTurn workerId input) outputs s := by
  have observe (t : Documents TurnKey (DurableTurnRecord Event)) :
      c.Safe .request (.spawn (.observing input.key emptyCheckpoint 0) fun _ => answer .started) outputs t :=
    fun u _ kept => ⟨(observes u kept).1, (observes u kept).2, fun _ => plain.answers _⟩
  intro outside _
  dsimp only
  split
  · exact plain.answers _
  · split
    · rename_i request fingerprint createdAt _ _
      split
      · exact plain.answers _
      · have rest (created : Bool × Versioned (DurableTurnRecord Event)) (t : Documents TurnKey (DurableTurnRecord Event)) :
            c.Safe .request (
              if created.1 || durableApplicationTurnStartMatches created.2.record
                  (pendingRecord input request fingerprint createdAt)
              then .spawn (.run workerId input.key) fun _ =>
                .spawn (.observing input.key emptyCheckpoint 0) fun _ => answer .started
              else if created.2.record.cancelledBeforeStart && created.2.record.status == .cancelled &&
                created.2.record.terminal.any TurnObservationResult.isCancelled
              then .spawn (.observing input.key emptyCheckpoint 0) fun _ => answer .started
              else answer (.failed .conflict)) outputs t := by
          split
          · exact plain.startsRun fun _ u _ _ => observe u
          · split
            · exact observe t
            · exact plain.answers _
        intro t _ invariant _
        rcases create_cases t input.key (pendingRecord input request fingerprint createdAt) with
          ⟨current, _, found⟩ | ⟨absent, created⟩
        · rw [show (durableCode options).perform (.create _ _) t = _ from found]
          exact ⟨invariant, plain.idle t, rest (false, current) t⟩
        · rw [show (durableCode options).perform (.create _ _) t = _ from created]
          obtain ⟨kept, change⟩ := creates request fingerprint createdAt t invariant absent
          exact ⟨kept, change, rest (true, ⟨1, pendingRecord input request fingerprint createdAt⟩) _⟩
    · exact plain.answers _

end Plain

end

end Handrail.Transports

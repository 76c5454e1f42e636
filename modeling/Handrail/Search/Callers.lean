import Handrail.Search.SearchPolicy

/-!
# Callers of a web search

In a run in which a call finds under its key only calls of its own application context, for its own request, and needs the
room of no other context's entry, each caller is served as if the others were not there.
-/

namespace Handrail.Search
open Js

variable {C : Type} [DecidableEq C]

namespace SearchService

def inputOf (w : SearchService C) (id : CallId C) : Option NormalizedInput :=
  match w.calls id with
  | some (.ok call) => some call.input
  | _ => none

/-- The entry that a call finds is of its context and, if it does not conflict, for its request. A call that finds none
finds room, or entries of its own context alone. -/
def keyIsOwn (limits : WebSearchLimits) (w : SearchService C) (id : CallId C) (call : SearchCall C) (fingerprint : JsString) :
    Bool :=
  match w.entries.get call.input.idempotencyKey with
  | some existing =>
    existing.owner.1 = id.1 ∧ (existing.fingerprint = fingerprint → w.inputOf existing.owner = some call.input)
  | none => w.entries.size < limits.idempotencyEntries ∨ ∀ entry ∈ w.entries.entries, entry.2.owner.1 = id.1

def meets (limits : WebSearchLimits) (w : SearchService C) : SearchAction C → Bool
  | .resume id =>
    match w.calls id with
    | some (.ok call) =>
      match call.phase with
      | .hashing fingerprint => w.keyIsOwn limits id call fingerprint
      | _ => true
    | _ => true
  | _ => true

def concerns (c : C) : SearchAction C → Bool
  | .advance _ => true
  | .search id .. | .resume id | .answer id _ | .abort id | .fire id | .markSettled id => id.1 = c

def restrict (w : SearchService C) (c : C) : SearchService C where
  now := w.now
  entries := w.entries.filterValues fun entry => entry.owner.1 = c
  calls id := if id.1 = c then w.calls id else none

variable {limits : WebSearchLimits} {hooks : SearchHooks C} {w : SearchService C} {id owner : CallId C} {call : SearchCall C}
  {c : C}

theorem restrict_calls (own : id.1 = c) : (w.restrict c).calls id = w.calls id := if_pos own

def Joins (w : SearchService C) : Prop :=
  ∀ id call owner, w.calls id = some (.ok call) → call.phase = .joined owner →
    owner.1 = id.1 ∧ w.inputOf owner = some call.input

/-! ### Updates -/

theorem update_self (w : SearchService C) (id : CallId C) (call : SearchCall C) : (w.update id call).calls id = some (.ok call) :=
  if_pos rfl

theorem update_other (w : SearchService C) (call : SearchCall C) {other : CallId C} (apart : other ≠ id) :
    (w.update id call).calls other = w.calls other := if_neg apart

theorem restrict_update (w : SearchService C) (id : CallId C) (call : SearchCall C) (c : C) :
    (w.update id call).restrict c = if id.1 = c then (w.restrict c).update id call else w.restrict c := by
  split
  · rename_i own
    unfold restrict update
    dsimp only
    congr 1
    funext other
    by_cases here : other = id
    · rw [here, if_pos own, if_pos rfl, if_pos rfl]
    · rw [if_neg here, if_neg here]
  · rename_i foreign
    unfold restrict update
    dsimp only
    congr 1
    funext other
    by_cases here : other = id
    · rw [here, if_neg foreign, if_neg foreign]
    · rw [if_neg here]

theorem restrict_withCall (w : SearchService C) (id : CallId C) (move : SearchCall C → SearchCall C) (c : C) :
    (w.withCall id move).restrict c = if id.1 = c then (w.restrict c).withCall id move else w.restrict c := by
  unfold withCall
  split
  · rename_i call found
    rw [restrict_update]
    split
    · rename_i own
      rw [restrict_calls own, found]
    · rfl
  · rename_i missing
    split
    · rename_i own
      rw [restrict_calls own]
      split
      · rename_i call found
        exact (missing call found).elim
      · rfl
    · rfl

theorem restrict_outcomeOf (own : id.1 = c) : (w.restrict c).outcomeOf id = w.outcomeOf id := by
  unfold outcomeOf
  rw [restrict_calls own]

/-! ### Room -/

omit [DecidableEq C] in
theorem evict_sub {limit : Nat} {room : OrderedMap JsString (SearchEntry C) × Bool} {rest : List (JsString × SearchEntry C)}
    {entries : OrderedMap JsString (SearchEntry C)} (evicted : evict limit rest entries = room) :
    ∀ entry ∈ room.1.entries, entry ∈ entries.entries := by
  induction rest generalizing entries with
  | nil =>
    rw [← evicted]
    exact fun entry member => member
  | cons first rest ih =>
    have fewer : ∀ entry ∈ (entries.delete first.1).entries, entry ∈ entries.entries :=
      fun entry member => (List.mem_filter.mp member).1
    unfold evict at evicted
    split at evicted
    · split at evicted
      · rw [← evicted]
        exact fewer
      · exact fun entry member => fewer entry (ih evicted entry member)
    · exact ih evicted

omit [DecidableEq C] in
theorem makeRoom_sub (limit : Nat) (entries : OrderedMap JsString (SearchEntry C)) :
    ∀ entry ∈ (makeRoom limit entries).1.entries, entry ∈ entries.entries := by
  unfold makeRoom
  split
  · exact fun entry member => member
  · exact evict_sub rfl

omit [DecidableEq C] in
theorem makeRoom_get (limit : Nat) {entries : OrderedMap JsString (SearchEntry C)} {key : JsString}
    (absent : entries.get key = none) : (makeRoom limit entries).1.get key = none := by
  cases found : (makeRoom limit entries).1.get key with
  | none => rfl
  | some entry =>
    have held := OrderedMap.mem_entries_iff.mp (makeRoom_sub limit entries _ (OrderedMap.mem_entries_iff.mpr found))
    rw [absent] at held
    cases held

/-- Room is made alike among the entries of the caller's context, and among none of another's. -/
theorem restrict_makeRoom {limit : Nat} {entries : OrderedMap JsString (SearchEntry C)} {own : C}
    (room : entries.size < limit ∨ ∀ entry ∈ entries.entries, entry.2.owner.1 = own) :
    (own = c → makeRoom limit (entries.filterValues fun entry => entry.owner.1 = c) =
      ((makeRoom limit entries).1.filterValues (fun entry => entry.owner.1 = c), (makeRoom limit entries).2)) ∧
    (own ≠ c → (makeRoom limit entries).1.filterValues (fun entry => entry.owner.1 = c) =
      entries.filterValues fun entry => entry.owner.1 = c) := by
  rcases room with free | alone
  · have same : makeRoom limit entries = (entries, true) := if_pos free
    rw [same]
    refine ⟨fun _ => if_pos ?_, fun _ => rfl⟩
    exact lt_of_le_of_lt (OrderedMap.size_filterValues_le ..) free
  · constructor
    · rintro rfl
      have all (m : OrderedMap JsString (SearchEntry C)) (within : ∀ entry ∈ m.entries, entry.2.owner.1 = own) :
          m.filterValues (fun entry => entry.owner.1 = own) = m := by
        apply OrderedMap.ext_entries
        exact List.filter_eq_self.mpr fun entry member => by simpa using within entry member
      rw [all entries alone, all _ fun entry member => alone entry (makeRoom_sub limit entries entry member)]
    · intro apart
      have nothing (m : OrderedMap JsString (SearchEntry C)) (within : ∀ entry ∈ m.entries, entry.2.owner.1 = own) :
          (m.filterValues (fun entry => entry.owner.1 = c)).entries = [] := by
        refine List.filter_eq_nil_iff.mpr fun entry member => ?_
        simpa [within entry member] using apart
      apply OrderedMap.ext_entries
      rw [nothing entries alone, nothing _ fun entry member => alone entry (makeRoom_sub limit entries entry member)]

/-! ### A step of one context -/

theorem restrict_proceed {fingerprint : JsString} (met : w.keyIsOwn limits id call fingerprint = true) :
    (w.proceed limits id call fingerprint).restrict c =
      if id.1 = c then (w.restrict c).proceed limits id call fingerprint else w.restrict c := by
  unfold keyIsOwn at met
  unfold proceed
  cases found : w.entries.get call.input.idempotencyKey with
  | some existing =>
    rw [found] at met
    dsimp only at met
    simp only [decide_eq_true_eq] at met
    have kept (own : id.1 = c) : (w.restrict c).entries.get call.input.idempotencyKey = some existing :=
      OrderedMap.get_filterValues.mpr ⟨found, by simpa using met.1.trans own⟩
    dsimp only
    split
    · rename_i conflicts
      rw [restrict_update]
      split
      · rename_i own
        rw [kept own]
        dsimp only
        rw [if_pos conflicts]
      · rfl
    · rename_i agrees
      rw [restrict_update]
      split
      · rename_i own
        rw [kept own]
        dsimp only
        rw [if_neg agrees]
      · rfl
  | none =>
    rw [found] at met
    dsimp only at met
    simp only [decide_eq_true_eq] at met
    obtain ⟨alike, untouched⟩ := restrict_makeRoom (c := c) met
    dsimp only
    have stored (own : id.1 = c) : (w.restrict c).entries.get call.input.idempotencyKey = none :=
      OrderedMap.get_filterValues_none found
    have room := makeRoom_get limits.idempotencyEntries found
    split
    · rename_i free
      rw [restrict_update]
      split
      · rename_i own
        rw [stored own]
        dsimp only
        have same : makeRoom limits.idempotencyEntries (w.restrict c).entries = _ := alike own
        rw [same, if_pos free]
        congr 1
        unfold restrict
        dsimp only
        congr 1
        rw [OrderedMap.filterValues_set_new _ _ room, if_pos (by simpa using own)]
      · rename_i foreign
        unfold restrict
        dsimp only
        congr 1
        rw [OrderedMap.filterValues_set_new _ _ room, if_neg (by simpa using foreign)]
        exact untouched foreign
    · rename_i full
      rw [restrict_update]
      split
      · rename_i own
        rw [stored own]
        dsimp only
        have same : makeRoom limits.idempotencyEntries (w.restrict c).entries = _ := alike own
        rw [same, if_neg full]
        rfl
      · rename_i foreign
        unfold restrict
        dsimp only
        congr 1
        exact untouched foreign

variable [SearchPlatform]

theorem restrict_search (id : CallId C) (input : JsValue) (context : SearchContext) :
    (w.step limits hooks (.search id input context)).restrict c =
      if id.1 = c then (w.restrict c).step limits hooks (.search id input context) else w.restrict c := by
  dsimp only [step]
  by_cases own : id.1 = c
  · rw [if_pos own, restrict_calls own]
    split
    · rfl
    · unfold restrict
      dsimp only
      congr 1
      funext other
      by_cases here : other = id
      · rw [here, if_pos own, if_pos rfl, if_pos rfl]
      · rw [if_neg here, if_neg here]
  · rw [if_neg own]
    split
    · rfl
    · unfold restrict
      dsimp only
      congr 1
      funext other
      by_cases here : other = id
      · rw [here, if_neg own, if_neg own]
      · rw [if_neg here]

theorem restrict_markSettled (id : CallId C) :
    (w.step limits hooks (.markSettled id)).restrict c =
      if id.1 = c then (w.restrict c).step limits hooks (.markSettled id) else w.restrict c := by
  dsimp only [step]
  have marked : (w.markSettled id).filterValues (fun entry => entry.owner.1 = c) = (w.restrict c).markSettled id := by
    refine OrderedMap.filterValues_mapValues _ fun entry => ?_
    split <;> rfl
  by_cases own : id.1 = c
  · rw [if_pos own]
    have finished : (w.restrict c).isOver id = w.isOver id := by
      unfold isOver
      rw [restrict_outcomeOf own]
    rw [finished]
    split
    · unfold restrict
      dsimp only
      congr 1
    · rfl
  · rw [if_neg own]
    split
    · unfold restrict
      dsimp only
      congr 1
      rw [marked]
      -- No entry of the context has this owner.
      apply OrderedMap.ext_entries
      refine (List.map_congr_left fun entry member => ?_).trans (List.map_id _)
      have kept : entry.2.owner.1 = c := by simpa using (List.mem_filter.mp member).2
      have apart : ¬entry.2.owner = id := fun same => own (by rw [← same]; exact kept)
      dsimp only
      rw [if_neg apart]
      rfl
    · rfl

theorem restrict_resume (joins : w.Joins) (met : w.meets limits (.resume id) = true) :
    (w.step limits hooks (.resume id)).restrict c =
      if id.1 = c then (w.restrict c).step limits hooks (.resume id) else w.restrict c := by
  dsimp only [step]
  cases found : w.calls id with
  | none =>
    dsimp only
    split
    · rename_i own
      rw [restrict_calls own, found]
    · rfl
  | some status =>
    cases status with
    | error code =>
      dsimp only
      split
      · rename_i own
        rw [restrict_calls own, found]
      · rfl
    | ok call =>
      dsimp only
      have same (own : id.1 = c) : (w.restrict c).calls id = some (.ok call) := (restrict_calls own).trans found
      split
      · rename_i fingerprint phase
        have owned : w.keyIsOwn limits id call fingerprint = true := by
          simpa [meets, found, phase] using met
        rw [restrict_proceed owned]
        split
        · rename_i own
          rw [same own]
          dsimp only
          rw [phase]
        · rfl
      · rename_i owner phase
        rw [restrict_update]
        split
        · rename_i own
          rw [same own]
          dsimp only
          rw [phase]
          dsimp only
          have follows : (w.restrict c).follow owner call = w.follow owner call := by
            unfold follow
            rw [restrict_outcomeOf ((joins id call owner found phase).1.trans own)]
          rw [follows]
        · rfl
      · rename_i unhashed unjoined
        rw [restrict_update]
        split
        · rename_i own
          rw [same own]
          dsimp only
          split
          · rename_i fingerprint phase
            exact (unhashed fingerprint phase).elim
          · rename_i owner phase
            exact (unjoined owner phase).elim
          · rfl
        · rfl

/-- A step is the step of the callers that it concerns. -/
theorem restrict_step (joins : w.Joins) {action : SearchAction C} (met : w.meets limits action = true) :
    (w.step limits hooks action).restrict c =
      if concerns c action then (w.restrict c).step limits hooks action else w.restrict c := by
  cases action with
  | advance milliseconds => rfl
  | search id input context => simpa only [concerns, decide_eq_true_eq] using restrict_search id input context
  | resume id => simpa only [concerns, decide_eq_true_eq] using restrict_resume joins met
  | markSettled id => simpa only [concerns, decide_eq_true_eq] using restrict_markSettled id
  | answer id output | abort id =>
    unfold step concerns
    simp only [restrict_withCall, decide_eq_true_eq]
  | fire id =>
    unfold step concerns
    simp only [restrict_withCall, decide_eq_true_eq]
    rfl

/-! ### What every call has passed -/

structure Sound (hooks : SearchHooks C) (w : SearchService C) : Prop where
  joins : w.Joins
  going : ∀ id call, w.calls id = some (.ok call) → Going hooks id.1 call

omit [SearchPlatform] in
theorem inputOf_update {next : SearchCall C} (found : w.calls id = some (.ok call)) (same : next.input = call.input)
    (other : CallId C) : (w.update id next).inputOf other = w.inputOf other := by
  unfold inputOf
  by_cases here : other = id
  · rw [here, update_self, found]
    exact congrArg some same
  · rw [update_other w next here]

theorem Sound.update (sound : Sound hooks w) {next : SearchCall C} (found : w.calls id = some (.ok call))
    (same : next.input = call.input) (going : Going hooks id.1 next)
    (joined : ∀ owner, next.phase = .joined owner → owner.1 = id.1 ∧ w.inputOf owner = some next.input) :
    Sound hooks (w.update id next) := by
  constructor
  · intro other held owner at_ phase
    rw [inputOf_update found same]
    by_cases here : other = id
    · subst here
      cases (update_self w other next).symm.trans at_
      exact joined owner phase
    · rw [update_other w next here] at at_
      exact sound.joins other held owner at_ phase
  · intro other held at_
    by_cases here : other = id
    · subst here
      cases (update_self w other next).symm.trans at_
      exact going
    · rw [update_other w next here] at at_
      exact sound.going other held at_

theorem Sound.remains (sound : Sound hooks w) {next : SearchCall C} (found : w.calls id = some (.ok call))
    (remains : Remains call next) (going : Going hooks id.1 next) : Sound hooks (w.update id next) := by
  refine sound.update found remains.1 going fun owner phase => ?_
  rw [remains.1]
  exact sound.joins id call owner found (remains.2 owner phase)

theorem Sound.withCall (sound : Sound hooks w) {move : SearchCall C → SearchCall C} (remains : ∀ call, Remains call (move call))
    (going : ∀ call, Going hooks id.1 call → Going hooks id.1 (move call)) : Sound hooks (w.withCall id move) := by
  unfold SearchService.withCall
  split
  · rename_i call found
    exact sound.remains found (remains call) (going call (sound.going id call found))
  · exact sound

omit [DecidableEq C] in
theorem Sound.entries (sound : Sound hooks w) (entries : OrderedMap JsString (SearchEntry C)) :
    Sound hooks { w with entries := entries } := ⟨sound.joins, sound.going⟩

theorem Sound.proceed (sound : Sound hooks w) (found : w.calls id = some (.ok call)) {fingerprint : JsString}
    (met : w.keyIsOwn limits id call fingerprint = true) : Sound hooks (w.proceed limits id call fingerprint) := by
  unfold keyIsOwn at met
  unfold SearchService.proceed
  cases stored : w.entries.get call.input.idempotencyKey with
  | some existing =>
    rw [stored] at met
    simp only [decide_eq_true_eq] at met
    dsimp only
    by_cases agrees : existing.fingerprint = fingerprint
    · rw [if_neg (not_not.mpr agrees)]
      refine sound.update found rfl trivial fun owner phase => ?_
      cases phase
      exact ⟨met.1, met.2 agrees⟩
    · rw [if_pos agrees]
      exact sound.remains found (remains_settle _) trivial
  | none =>
    dsimp only
    split
    · exact (sound.entries _).remains found (remains_enter _) (going_enter trivial)
    · exact (sound.entries _).remains found (remains_settle _) trivial

omit [DecidableEq C] in
theorem Sound.follow (sound : Sound hooks w) (found : w.calls id = some (.ok call)) {owner : CallId C}
    (phase : call.phase = .joined owner) : Going hooks id.1 (w.follow owner call) := by
  obtain ⟨context, input⟩ := sound.joins id call owner found phase
  unfold SearchService.follow
  split
  · rename_i outcome finished
    cases outcome with
    | error code => trivial
    | ok output =>
      unfold outcomeOf at finished
      unfold inputOf at input
      cases at_ : w.calls owner with
      | none =>
        rw [at_] at finished
        cases finished
      | some status =>
        rw [at_] at finished input
        cases status with
        | error code => cases input
        | ok other =>
          dsimp only at finished input
          split at finished
          · rename_i settled
            have passed := sound.going owner other at_
            unfold Going at passed
            rw [settled, Option.some.inj finished] at passed
            have allowed : Allowed hooks owner.1 other.input output := passed
            rw [context, Option.some.inj input] at allowed
            exact allowed
          · cases finished
  · rw [Going, phase]
    trivial

omit [DecidableEq C] in
theorem sound_create (now : Int) : Sound hooks (create now) where
  joins id call owner found := by cases found
  going id call found := by cases found

omit [DecidableEq C] [SearchPlatform] in
theorem begin_hashing {now : Int} {input : JsValue} {context : SearchContext}
    (begun : begin limits hooks now input context = .ok call) :
    ∃ fingerprint, call.phase = .hashing fingerprint := by
  unfold begin at begun
  split at begun
  · split at begun
    · cases begun
    · split at begun
      · cases begun
      · split at begun
        · cases begun
        · split at begun
          · cases begun
          · cases begun
            exact ⟨_, rfl⟩
  · cases begun

theorem sound_step (sound : Sound hooks w) {action : SearchAction C} (met : w.meets limits action = true) :
    Sound hooks (w.step limits hooks action) := by
  cases action with
  | advance milliseconds => exact ⟨sound.joins, sound.going⟩
  | answer id output => exact sound.withCall (fun call => remains_answer output) fun call going => going_answer going output
  | abort id => exact sound.withCall (fun call => remains_abort) fun call going => going_abort going
  | fire id => exact sound.withCall (fun call => remains_fire _) fun call going => going_fire going _
  | markSettled id =>
    unfold step
    dsimp only
    split
    · exact sound.entries _
    · exact sound
  | resume id =>
    unfold step
    dsimp only
    split
    · rename_i call found
      split
      · rename_i fingerprint phase
        exact sound.proceed found (by simpa [meets, found, phase] using met)
      · rename_i owner phase
        refine sound.remains found ?_ (sound.follow found phase)
        unfold SearchService.follow
        split
        · exact remains_settle _
        · exact remains_self call
      · exact sound.remains found remains_resume (going_resume (sound.going id call found))
    · exact sound
  | search id input context =>
    unfold step
    dsimp only
    split
    · exact sound
    · rename_i fresh
      have kept (other : CallId C) (apart : other ≠ id) :
          (if other = id then some (begin limits hooks w.now input context) else w.calls other) = w.calls other := if_neg apart
      constructor
      · intro other call owner at_ phase
        by_cases here : other = id
        · subst here
          have begun : begin limits hooks w.now input context = .ok call := by
            simpa using at_
          obtain ⟨fingerprint, hashing⟩ := begin_hashing begun
          rw [hashing] at phase
          cases phase
        · have before : w.calls other = some (.ok call) := (kept other here).symm.trans at_
          obtain ⟨context', input'⟩ := sound.joins other call owner before phase
          refine ⟨context', ?_⟩
          unfold inputOf at input' ⊢
          by_cases new : owner = id
          · rw [new] at input'
            cases missing : w.calls id with
            | none =>
              rw [missing] at input'
              cases input'
            | some status =>
              rw [missing] at fresh
              exact (fresh rfl).elim
          · dsimp only
            rw [if_neg new]
            exact input'
      · intro other call at_
        by_cases here : other = id
        · subst here
          have begun : begin limits hooks w.now input context = .ok call := by
            simpa using at_
          obtain ⟨fingerprint, hashing⟩ := begin_hashing begun
          rw [Going, hashing]
          trivial
        · exact sound.going other call ((kept other here).symm.trans at_)

/-! ### Runs -/

def AllMet (limits : WebSearchLimits) (hooks : SearchHooks C) (w : SearchService C) : List (SearchAction C) → Prop
  | [] => True
  | action :: rest => w.meets limits action = true ∧ AllMet limits hooks (w.step limits hooks action) rest

instance decidableAllMet (limits : WebSearchLimits) (hooks : SearchHooks C) : (w : SearchService C) →
    (actions : List (SearchAction C)) → Decidable (AllMet limits hooks w actions)
  | _, [] => inferInstanceAs (Decidable True)
  | w, action :: rest =>
    let _ := decidableAllMet limits hooks (w.step limits hooks action) rest
    inferInstanceAs (Decidable (w.meets limits action = true ∧ AllMet limits hooks (w.step limits hooks action) rest))

theorem sound_run (sound : Sound hooks w) {actions : List (SearchAction C)} (met : AllMet limits hooks w actions) :
    Sound hooks (w.run limits hooks actions) := by
  induction actions generalizing w with
  | nil => exact sound
  | cons action rest ih => exact ih (sound_step sound met.1) met.2

/-- What the service has of a context after a run is what it has after the actions of the context alone. -/
theorem restrict_run (sound : Sound hooks w) {actions : List (SearchAction C)} (met : AllMet limits hooks w actions) (c : C) :
    (w.run limits hooks actions).restrict c = (w.restrict c).run limits hooks (actions.filter (concerns c)) := by
  induction actions generalizing w with
  | nil => rfl
  | cons action rest ih =>
    have first : (w.step limits hooks action).restrict c =
        if concerns c action then (w.restrict c).step limits hooks action else w.restrict c := restrict_step sound.joins met.1
    have later := ih (sound_step sound met.1) met.2
    rw [first] at later
    rw [List.filter_cons]
    split
    · rename_i own
      rw [if_pos own] at later
      exact later
    · rename_i foreign
      rw [if_neg foreign] at later
      exact later

structure Apart (limits : WebSearchLimits) (hooks : SearchHooks C) (now : Int) (actions : List (SearchAction C)) : Prop where
  /-- Results go to a call whose context the hooks let have them. -/
  allowed : ∀ id call output, ((create now).run limits hooks actions).calls id = some (.ok call) →
    call.phase = .settled (.ok output) → Allowed hooks id.1 call.input output
  /-- A call is where it would be without the calls of other contexts: it is cancelled, and refused for its key, only then. -/
  independent : ∀ id, ((create now).run limits hooks actions).calls id =
    ((create now).run limits hooks (actions.filter (concerns id.1))).calls id

/-- In a run in which each call finds under its key only calls of its own context and for its own request, and room among
entries of its own context, callers do not affect those of another context. -/
theorem callers_apart (limits : WebSearchLimits) (hooks : SearchHooks C) (now : Int) (actions : List (SearchAction C))
    (met : AllMet limits hooks (create now) actions) : Apart limits hooks now actions := by
  have sound : Sound hooks (create now) := sound_create now
  constructor
  · intro id call output found phase
    have going := (sound_run sound met).going id call found
    rw [Going, phase] at going
    exact going
  · intro id
    have same := restrict_run sound met id.1
    have empty : (create now : SearchService C).restrict id.1 = create now := by
      unfold restrict create
      congr 1
      funext other
      split <;> rfl
    rw [empty] at same
    rw [← same]
    exact (if_pos rfl).symm

end SearchService

/-! ### Two callers with one key -/

@[reducible] def sampleSearchPlatform : SearchPlatform where
  parseUrl value := some ⟨js "https:", JsString.empty, JsString.empty, [], JsString.empty, js "example.com", value⟩
  searchParams _ := []
  canonicalHref url _ := url.href

theorem sampleLimits_valid : (1 ≤ 10 ∧ 10 ≤ ceilings.requestedResults) ∧ (1 ≤ 20 ∧ 20 ≤ ceilings.adapterResults) ∧
    (1 ≤ 65536 ∧ 65536 ≤ ceilings.totalSerializedUtf8Bytes) ∧ (1 ≤ 15000 ∧ 15000 ≤ ceilings.timeoutMs) ∧
    (1 ≤ 256 ∧ 256 ≤ ceilings.idempotencyEntries) ∧ 10 ≤ 20 := by
  decide

/-- `WEB_SEARCH_LIMITS` themselves. -/
def sampleLimits : WebSearchLimits where
  requestedResults := 10
  adapterResults := 20
  totalSerializedUtf8Bytes := 65536
  timeoutMs := 15000
  idempotencyEntries := 256
  requestedInRange := sampleLimits_valid.1
  adapterInRange := sampleLimits_valid.2.1
  totalInRange := sampleLimits_valid.2.2.1
  timeoutInRange := sampleLimits_valid.2.2.2.1
  entriesInRange := sampleLimits_valid.2.2.2.2.1
  enough := sampleLimits_valid.2.2.2.2.2

def sampleHooks : SearchHooks Nat where
  authorize input := some (input.applicationContext == 0)
  validateUrl _ := some true
  acceptResult _ := some true
  digest := some fun octets => ⟨octets.map Nat.toUInt16⟩

def sampleFields (fields : List (String × JsValue)) : JsValue := .obj (fields.map fun field => (js field.1, field.2))

def sampleQuery (query key : String) : JsValue := sampleFields [
  ("query", .str (js query)), ("max_results", .num (JsNumber.ofNat 3)), ("idempotency_key", .str (js key))]

def sampleOutput : JsValue := sampleFields [("results", .arr [sampleFields [
  ("source_id", .str (js "source.1")), ("title", .str (js "Example")), ("snippet", .str (js "An example.")),
  ("url", .str (js "https://example.com/"))]])]

def sampleSearch (id : CallId Nat) (query key : String) : List (SearchAction Nat) :=
  [toolSearch sampleLimits 0 id (sampleQuery query key) false, .resume id]

def sampleAnswered (id : CallId Nat) : List (SearchAction Nat) := [
  .answer id none, .resume id, .answer id (some sampleOutput), .resume id, .answer id none, .resume id,
    .answer id none, .resume id]

namespace SearchService

def failedWith (w : SearchService Nat) (id : CallId Nat) : Option WebSearchErrorCode :=
  match w.outcomeOf id with
  | some (.error code) => some code
  | _ => none

def resultsOf (w : SearchService Nat) (id : CallId Nat) : Option (List JsString) :=
  match w.outcomeOf id with
  | some (.ok output) => some (output.results.map WebSearchResult.url)
  | _ => none

/-- `signal.aborted` of a call. -/
def abortedOf (w : SearchService Nat) (id : CallId Nat) : Option Bool :=
  match w.calls id with
  | some (.ok call) => some call.aborted
  | _ => none

theorem callers_apart_sampled : let _ := sampleSearchPlatform
    Apart sampleLimits sampleHooks 0
      (sampleSearch (0, 0) "handrail" "search.1" ++ sampleSearch (1, 0) "handrail" "search.2" ++ sampleAnswered (0, 0)) := by
  let _ := sampleSearchPlatform
  exact callers_apart sampleLimits sampleHooks 0 _ (by decide +kernel)

def sampleShared : List (SearchAction Nat) :=
  sampleSearch (0, 0) "handrail" "search.1" ++ sampleSearch (1, 0) "handrail" "search.1" ++
    sampleAnswered (0, 0) ++ [.resume (1, 0)]

def sampleCancelled : List (SearchAction Nat) :=
  sampleSearch (0, 0) "handrail" "search.1" ++ sampleSearch (1, 0) "handrail" "search.1" ++
    [.abort (0, 0), .resume (0, 0), .resume (1, 0)]

def sampleConflicting : List (SearchAction Nat) :=
  sampleSearch (0, 0) "handrail" "search.1" ++ sampleSearch (1, 0) "comma" "search.1"

theorem settled_of_results {w : SearchService Nat} {id : CallId Nat} {urls : List JsString}
    (results : w.resultsOf id = some urls) :
    ∃ call output, w.calls id = some (.ok call) ∧ call.phase = .settled (.ok output) := by
  unfold resultsOf outcomeOf at results
  split at results
  · rename_i output finished
    split at finished
    · rename_i call found
      split at finished
      · rename_i outcome settled
        rw [Option.some.inj finished] at settled
        exact ⟨call, output, found, settled⟩
      · cases finished
    · cases finished
    · cases finished
  · cases results

theorem sample_denied (input : NormalizedInput) : ¬Authorized sampleHooks 1 input := by
  rintro ⟨deadlineAt, authorized⟩
  cases authorized

/-- A caller that `authorize` denies has the results of another caller's search; it is cancelled when the other is; and it
is refused because the other uses its key. -/
theorem callers_affected : let _ := sampleSearchPlatform
    ∃ shared cancelled conflicting : List (SearchAction Nat),
      let after (actions : List (SearchAction Nat)) := (create 0).run sampleLimits sampleHooks actions
      let alone (actions : List (SearchAction Nat)) := after (actions.filter (concerns 1))
      ((after shared).resultsOf (1, 0) = some [js "https://example.com/"] ∧
        (∀ input, ¬Authorized sampleHooks 1 input) ∧ ¬Apart sampleLimits sampleHooks 0 shared) ∧
      ((after cancelled).failedWith (1, 0) = some .cancelled ∧ (after cancelled).abortedOf (1, 0) = some false ∧
        (alone cancelled).failedWith (1, 0) = none) ∧
      ((after conflicting).failedWith (1, 0) = some .idempotencyConflict ∧ (alone conflicting).failedWith (1, 0) = none) := by
  let _ := sampleSearchPlatform
  have results : ((create 0).run sampleLimits sampleHooks sampleShared).resultsOf (1, 0) = some [js "https://example.com/"] := by
    decide +kernel
  have affected : ¬Apart sampleLimits sampleHooks 0 sampleShared := by
    intro apart
    obtain ⟨call, output, found, settled⟩ := settled_of_results results
    exact sample_denied _ (apart.allowed (1, 0) call output found settled).1
  exact ⟨sampleShared, sampleCancelled, sampleConflicting,
    ⟨results, sample_denied, affected⟩, by decide +kernel, by decide +kernel⟩

end SearchService

end Handrail.Search

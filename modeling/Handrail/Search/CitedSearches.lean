import Handrail.Search.CitedResults

/-!
# Searches whose results may be cited

An operation whose adapter output is normalized to results that may be cited never fails as `adapter_unavailable`.
-/

namespace Handrail.Search
open Js
open Whatwg (UrlPlatform UrlStandard)

variable {C : Type} {hooks : SearchHooks C} {limits : WebSearchLimits} {call : SearchCall C}

section
variable [WhatwgPlatform]

def Fits (candidate : CandidateResult) : Prop := candidate.Sound ∧ Citable candidate.result

def Position.Fits (position : Position) : Prop :=
  Search.Fits position.candidate ∧ ∀ candidate ∈ position.rest, Search.Fits candidate

/-- The operation is past the adapter, and has not failed as `adapter_unavailable`. -/
def Past (limits : WebSearchLimits) (call : SearchCall C) : Prop :=
  match call.phase with
  | .awaiting .adapter (some (.output value)) =>
    ∃ candidates, normalizeAdapterOutput value limits.adapterResults = some candidates ∧ ∀ candidate ∈ candidates, Fits candidate
  | .awaiting (.validateUrl _ _ _ position) _ => position.Fits
  | .awaiting (.acceptResult position) _ => position.Fits
  | .settled outcome => outcome ≠ .error .adapterUnavailable
  | _ => False

theorem normalizeAdapterOutput_sound {value : JsValue} {maximum : Nat} {candidates : List CandidateResult}
    (accepted : normalizeAdapterOutput value maximum = some candidates) : ∀ candidate ∈ candidates, candidate.Sound := by
  intro candidate member
  unfold normalizeAdapterOutput at accepted
  split at accepted
  · split at accepted
    · obtain ⟨results, -, each⟩ := Option.bind_eq_some_iff.mp accepted
      obtain ⟨value, -, normalized⟩ := mapM_mem each member
      exact normalizeCandidate_sound normalized
    · cases accepted
  · cases accepted

/-! ### The operation -/

theorem past_interrupt : Past limits call.interrupt := by
  unfold SearchCall.interrupt
  split <;> rintro ⟨⟩

theorem past_fail {code : WebSearchErrorCode} (other : code ≠ .adapterUnavailable) : Past limits (call.fail code) := by
  rintro same
  exact other (Except.error.inj same)

theorem past_caught {code : WebSearchErrorCode} (other : code ≠ .adapterUnavailable) : Past limits (call.caught code) := by
  unfold SearchCall.caught
  split
  · exact past_interrupt
  · exact past_fail other

theorem past_nextUrl [UrlStandard] {index : Nat} {position : Position} (fits : position.Fits) :
    Past limits (call.nextUrl index position) := by
  unfold SearchCall.nextUrl
  cases found : position.candidate.validationUrls[index]? with
  | none => exact fits
  | some url =>
    obtain ⟨value, canonical⟩ := fits.1.1.urls url (List.mem_of_getElem? found)
    obtain ⟨raw, record, -, read, -, -, -, rfl⟩ := canonicalUrl_eq_some.mp canonical
    have parsed := parseUrl_record (UrlStandard.reparsed _ (reached_canonicalRecord read (hostName record.host)))
    dsimp only
    rw [parsed]
    exact fits

theorem past_nextCandidate [UrlStandard] {candidates : List CandidateResult} {retained : WebSearchResultSet}
    (fits : ∀ candidate ∈ candidates, Fits candidate) : Past limits (call.nextCandidate limits candidates retained) := by
  unfold SearchCall.nextCandidate
  cases candidates with
  | nil =>
    dsimp only
    split
    · exact past_fail (by decide)
    · rintro ⟨⟩
  | cons candidate rest => exact past_nextUrl (List.forall_mem_cons.mp fits)

theorem past_accept [UrlStandard] {position : Position} (fits : position.Fits) : Past limits (call.accept limits position) := by
  unfold SearchCall.accept
  dsimp only
  split
  · exact past_nextCandidate fits.2
  · rw [(sourceOf_eq_some fits.1.1).mpr ⟨fits.1.2, rfl⟩]
    exact past_nextCandidate fits.2

theorem past_resume [UrlStandard] (past : Past limits call) : Past limits (call.resume limits) := by
  unfold SearchCall.resume
  cases phase : call.phase with
  | hashing fingerprint =>
    rw [Past, phase] at past
    exact past.elim
  | joined owner =>
    rw [Past, phase] at past
    exact past.elim
  | settled outcome =>
    rw [Past, phase] at past
    unfold Past
    rw [phase]
    exact past
  | awaiting await reply =>
    cases await with
    | authorize =>
      rw [Past, phase] at past
      exact past.elim
    | adapter =>
      rw [Past, phase] at past
      cases reply with
      | none => exact past.elim
      | some reply =>
        cases reply with
        | output value =>
          obtain ⟨candidates, normalized, fits⟩ := past
          dsimp only
          rw [normalized]
          exact past_nextCandidate fits
        | _ => exact past.elim
    | validateUrl index url hostname position =>
      have fits : position.Fits := by
        rw [Past, phase] at past
        exact past
      cases reply with
      | none =>
        unfold Past
        rw [phase]
        exact fits
      | some reply =>
        cases reply with
        | threw => exact past_caught (by decide)
        | aborted => exact past_interrupt
        | output value => exact past_fail (by decide)
        | decided allowed =>
          cases allowed with
          | true => exact past_nextUrl fits
          | false => exact past_fail (by decide)
    | acceptResult position =>
      have fits : position.Fits := by
        rw [Past, phase] at past
        exact past
      cases reply with
      | none =>
        unfold Past
        rw [phase]
        exact fits
      | some reply =>
        cases reply with
        | threw => exact past_caught (by decide)
        | aborted => exact past_interrupt
        | output value => exact past_fail (by decide)
        | decided allowed =>
          cases allowed with
          | true => exact past_accept fits
          | false => exact past_fail (by decide)

theorem past_answer (past : Past limits call) (context : C) (output : Option JsValue) :
    Past limits (call.answer hooks context output) := by
  unfold SearchCall.answer
  split
  · rename_i await phase
    rw [Past, phase] at past
    cases await with
    | authorize => exact past.elim
    | adapter => exact past.elim
    | _ => exact past
  · exact past

theorem past_abortController (past : Past limits call) : Past limits call.abortController := by
  unfold SearchCall.abortController
  split
  · rename_i await phase
    rw [Past, phase] at past
    cases await with
    | authorize => exact past.elim
    | adapter => exact past.elim
    | _ => exact past
  · exact past
  · exact past

theorem past_fire (past : Past limits call) (now : Int) : Past limits (call.fire now) := by
  unfold SearchCall.fire
  split
  · split
    · have late : Past limits { call with timedOut := true } := past
      exact past_abortController late
    · exact past
  · exact past

/-! ### The service -/

namespace SearchService
variable [DecidableEq C] {w : SearchService C} {id : CallId C}

theorem past_withCall (found : w.calls id = some (.ok call)) (past : Past limits call) {other : CallId C}
    {move : SearchCall C → SearchCall C} (keeps : ∀ call, Past limits call → Past limits (move call)) :
    ∃ next, (w.withCall other move).calls id = some (.ok next) ∧ Past limits next := by
  unfold withCall
  by_cases same : id = other
  · subst same
    rw [found]
    exact ⟨move call, if_pos rfl, keeps call past⟩
  · split
    · exact ⟨call, (if_neg same).trans found, past⟩
    · exact ⟨call, found, past⟩

/-- A search that is past its adapter stays past it. -/
theorem past_step [UrlStandard] (hooks : SearchHooks C) (found : w.calls id = some (.ok call))
    (past : Past limits call) (action : SearchAction C) :
    ∃ next, (w.step limits hooks action).calls id = some (.ok next) ∧ Past limits next := by
  cases action with
  | advance milliseconds => exact ⟨call, found, past⟩
  | answer other output => exact past_withCall found past fun call held => past_answer held other.1 output
  | abort other =>
    refine past_withCall found past fun call held => ?_
    have marked : Past limits { call with aborted := true } := held
    exact past_abortController marked
  | fire other => exact past_withCall found past fun call held => past_fire held _
  | markSettled other =>
    unfold step
    dsimp only
    split <;> exact ⟨call, found, past⟩
  | search other input context =>
    unfold step
    dsimp only
    split
    · exact ⟨call, found, past⟩
    · rename_i fresh
      have apart : id ≠ other := by
        rintro rfl
        rw [found] at fresh
        exact fresh rfl
      exact ⟨call, (if_neg apart).trans found, past⟩
  | resume other =>
    unfold step
    dsimp only
    by_cases same : id = other
    · subst same
      rw [found]
      dsimp only
      cases phase : call.phase with
      | hashing fingerprint =>
        rw [Past, phase] at past
        exact past.elim
      | joined owner =>
        rw [Past, phase] at past
        exact past.elim
      | _ => exact ⟨_, if_pos rfl, past_resume past⟩
    · split
      · rename_i moved there
        split
        · refine ⟨call, ?_, past⟩
          unfold proceed
          split
          · split <;> exact (if_neg same).trans found
          · dsimp only
            split <;> exact (if_neg same).trans found
        · exact ⟨call, (if_neg same).trans found, past⟩
        · exact ⟨call, (if_neg same).trans found, past⟩
      · exact ⟨call, found, past⟩

theorem past_run [UrlStandard] (hooks : SearchHooks C) (found : w.calls id = some (.ok call))
    (past : Past limits call) (actions : List (SearchAction C)) :
    ∃ next, (w.run limits hooks actions).calls id = some (.ok next) ∧ Past limits next := by
  induction actions generalizing w call with
  | nil => exact ⟨call, found, past⟩
  | cons action rest ih =>
    obtain ⟨next, there, held⟩ := past_step hooks found past action
    exact ih there held

def Follower (limits : WebSearchLimits) (owner : CallId C) (call : SearchCall C) : Prop :=
  call.phase = .joined owner ∨ Past limits call

omit [DecidableEq C] in
theorem outcomeOf_past (found : w.calls id = some (.ok call)) (past : Past limits call)
    {outcome : Except WebSearchErrorCode WebSearchResultSet} (answered : w.outcomeOf id = some outcome) :
    outcome ≠ .error .adapterUnavailable := by
  unfold outcomeOf at answered
  rw [found] at answered
  dsimp only at answered
  split at answered
  · rename_i settled
    cases answered
    rw [Past, settled] at past
    exact past
  · cases answered

theorem follower_step [UrlStandard] (hooks : SearchHooks C) (found : w.calls id = some (.ok call))
    (past : Past limits call) {other : CallId C}
    {follower : SearchCall C} (there : w.calls other = some (.ok follower)) (follows : Follower limits id follower)
    (action : SearchAction C) : ∃ next, (w.step limits hooks action).calls other = some (.ok next) ∧ Follower limits id next := by
  rcases follows with joined | own
  · have stays {move : SearchCall C → SearchCall C} (keeps : (move follower).phase = .joined id) (acted : CallId C) :
        ∃ next, (w.withCall acted move).calls other = some (.ok next) ∧ Follower limits id next := by
      unfold withCall
      by_cases same : other = acted
      · subst same
        rw [there]
        exact ⟨move follower, if_pos rfl, .inl keeps⟩
      · split
        · exact ⟨follower, (if_neg same).trans there, .inl joined⟩
        · exact ⟨follower, there, .inl joined⟩
    cases action with
    | advance milliseconds => exact ⟨follower, there, .inl joined⟩
    | answer acted output => exact stays (by rw [SearchCall.answer, joined]; exact joined) acted
    | abort acted => exact stays (by rw [SearchCall.abort, SearchCall.abortController, joined]) acted
    | fire acted => exact stays (by rw [SearchCall.fire, joined]; exact joined) acted
    | markSettled acted =>
      unfold step
      dsimp only
      split <;> exact ⟨follower, there, .inl joined⟩
    | search acted input context =>
      unfold step
      dsimp only
      split
      · exact ⟨follower, there, .inl joined⟩
      · rename_i fresh
        have apart : other ≠ acted := by
          rintro rfl
          rw [there] at fresh
          exact fresh rfl
        exact ⟨follower, (if_neg apart).trans there, .inl joined⟩
    | resume acted =>
      unfold step
      dsimp only
      by_cases same : other = acted
      · subst same
        rw [there]
        dsimp only
        rw [joined]
        refine ⟨_, if_pos rfl, ?_⟩
        unfold follow
        cases answered : w.outcomeOf id with
        | none => exact .inl joined
        | some outcome => exact .inr (outcomeOf_past found past answered)
      · split
        · split
          · refine ⟨follower, ?_, .inl joined⟩
            unfold proceed
            split
            · split <;> exact (if_neg same).trans there
            · dsimp only
              split <;> exact (if_neg same).trans there
          · exact ⟨follower, (if_neg same).trans there, .inl joined⟩
          · exact ⟨follower, (if_neg same).trans there, .inl joined⟩
        · exact ⟨follower, there, .inl joined⟩
  · obtain ⟨next, moved, held⟩ := past_step hooks there own action
    exact ⟨next, moved, .inr held⟩

/-- An operation that is past the adapter, and those that have joined it, never fail as `adapter_unavailable`. -/
theorem follower_run [UrlStandard] (found : w.calls id = some (.ok call)) (past : Past limits call) {other : CallId C}
    {follower : SearchCall C} (there : w.calls other = some (.ok follower)) (follows : Follower limits id follower)
    (actions : List (SearchAction C)) : (w.run limits hooks actions).outcomeOf other ≠ some (.error .adapterUnavailable) := by
  induction actions generalizing w call follower with
  | nil =>
    intro failed
    rcases follows with joined | own
    · unfold run outcomeOf at failed
      rw [List.foldl_nil, there] at failed
      dsimp only at failed
      rw [joined] at failed
      cases failed
    · exact outcomeOf_past there own failed rfl
  | cons action rest ih =>
    obtain ⟨next, moved, held⟩ := past_step hooks found past action
    obtain ⟨later, here, goes⟩ := follower_step hooks found past there follows action
    exact ih moved held here goes

end SearchService
end
end Handrail.Search

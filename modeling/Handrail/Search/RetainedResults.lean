import Handrail.Search.Callers

/-!
# What the searches retain

A property of result sets that survives each result that is retained holds of everything the searches answer with.
-/

namespace Handrail.Search
open Js

section
variable [SearchPlatform]

def Retains (retained : WebSearchResultSet) (result : WebSearchResult) (source : CitationSource) : Prop :=
  sourceOf result = some source ∧ retained.results.any (·.url == result.url) = false ∧
    retained.results.any (·.sourceId == result.sourceId) = false

structure Kept (limits : WebSearchLimits) (P : WebSearchResultSet → Prop) (Q : CandidateResult → Prop) : Prop where
  nothing : P ⟨[], []⟩
  normalized : ∀ value candidates, normalizeAdapterOutput value limits.adapterResults = some candidates →
    ∀ candidate ∈ candidates, Q candidate
  retain : ∀ retained candidate source, P retained → Q candidate → Retains retained candidate.result source →
    P ⟨retained.results ++ [candidate.result], retained.sources ++ [source]⟩

def Position.Holds (P : WebSearchResultSet → Prop) (Q : CandidateResult → Prop) (position : Position) : Prop :=
  P position.retained ∧ Q position.candidate ∧ ∀ candidate ∈ position.rest, Q candidate

variable {C : Type} {hooks : SearchHooks C} {limits : WebSearchLimits} {call : SearchCall C} {P : WebSearchResultSet → Prop}
  {Q : CandidateResult → Prop}

def SearchCall.Holds (P : WebSearchResultSet → Prop) (Q : CandidateResult → Prop) (call : SearchCall C) : Prop :=
  match call.phase with
  | .awaiting (.validateUrl _ _ _ position) _ => position.Holds P Q
  | .awaiting (.acceptResult position) _ => position.Holds P Q
  | .settled (.ok output) => P output
  | _ => True

/-! ### The operation -/

omit [SearchPlatform] in
theorem holds_caught (code : WebSearchErrorCode) : (call.caught code).Holds P Q := by
  unfold SearchCall.caught
  split <;> trivial

theorem holds_nextUrl {index : Nat} {position : Position} (holds : position.Holds P Q) :
    (call.nextUrl index position).Holds P Q := by
  unfold SearchCall.nextUrl
  split
  · exact holds
  · split
    · exact holds
    · exact holds_caught _

theorem holds_nextCandidate {candidates : List CandidateResult} {retained : WebSearchResultSet} (holds : P retained)
    (rest : ∀ candidate ∈ candidates, Q candidate) : (call.nextCandidate limits candidates retained).Holds P Q := by
  unfold SearchCall.nextCandidate
  split
  · rename_i candidate others
    rw [List.forall_mem_cons] at rest
    exact holds_nextUrl ⟨holds, rest⟩
  · split
    · trivial
    · exact holds

theorem holds_accept (kept : Kept limits P Q) {position : Position} (holds : position.Holds P Q) :
    (call.accept limits position).Holds P Q := by
  obtain ⟨retained, candidate, rest⟩ := holds
  unfold SearchCall.accept
  dsimp only
  split
  · exact holds_nextCandidate retained rest
  · rename_i fresh
    rw [not_or, not_or, Bool.not_eq_true, Bool.not_eq_true] at fresh
    split
    · rename_i source found
      exact holds_nextCandidate (kept.retain _ _ source retained candidate ⟨found, fresh.2⟩) rest
    · exact holds_caught _

theorem holds_resume (kept : Kept limits P Q) (holds : call.Holds P Q) : (call.resume limits).Holds P Q := by
  unfold SearchCall.resume
  unfold SearchCall.Holds at holds
  split
  · trivial
  · trivial
  · exact holds_caught _
  · trivial
  · split
    · rename_i candidates normalized
      exact holds_nextCandidate kept.nothing (kept.normalized _ candidates normalized)
    · trivial
  · exact holds_caught _
  · rename_i phase
    rw [phase] at holds
    exact holds_nextUrl holds
  · rename_i phase
    rw [phase] at holds
    exact holds_accept kept holds
  · exact holds_caught _
  · exact holds_caught _
  · trivial
  · trivial
  · exact holds

omit [SearchPlatform] in
theorem holds_answer (holds : call.Holds P Q) (context : C) (output : Option JsValue) :
    (call.answer hooks context output).Holds P Q := by
  unfold SearchCall.answer
  split
  · rename_i await phase
    unfold SearchCall.Holds at holds ⊢
    rw [phase] at holds
    cases await <;> exact holds
  · exact holds

omit [SearchPlatform] in
theorem holds_abortController (holds : call.Holds P Q) : call.abortController.Holds P Q := by
  unfold SearchCall.abortController
  split
  · rename_i await phase
    unfold SearchCall.Holds at holds ⊢
    rw [phase] at holds
    cases await <;> exact holds
  · exact holds
  · exact holds

omit [SearchPlatform] in
theorem holds_fire (holds : call.Holds P Q) (now : Int) : (call.fire now).Holds P Q := by
  unfold SearchCall.fire
  split
  · split
    · have late : { call with timedOut := true }.Holds P Q := holds
      exact holds_abortController late
    · exact holds
  · exact holds

/-! ### The service -/

namespace SearchService
variable [DecidableEq C] {w : SearchService C} {id : CallId C}

def Holds (P : WebSearchResultSet → Prop) (Q : CandidateResult → Prop) (w : SearchService C) : Prop :=
  ∀ id call, w.calls id = some (.ok call) → call.Holds P Q

omit [SearchPlatform] in
theorem Holds.update (holds : w.Holds P Q) {next : SearchCall C} (one : next.Holds P Q) : (w.update id next).Holds P Q := by
  intro other call found
  by_cases same : other = id
  · have here : (w.update id next).calls other = some (.ok next) := if_pos same
    rw [here] at found
    cases found
    exact one
  · have there : (w.update id next).calls other = w.calls other := if_neg same
    rw [there] at found
    exact holds other call found

omit [SearchPlatform] in
theorem Holds.withCall (holds : w.Holds P Q) {move : SearchCall C → SearchCall C}
    (moved : ∀ call, call.Holds P Q → (move call).Holds P Q) :
    (w.withCall id move).Holds P Q := by
  unfold SearchService.withCall
  split
  · rename_i call found
    exact holds.update (moved call (holds id call found))
  · exact holds

omit [SearchPlatform] in
theorem Holds.proceed (holds : w.Holds P Q) (fingerprint : JsString) : (w.proceed limits id call fingerprint).Holds P Q := by
  unfold SearchService.proceed
  split
  · split
    · exact holds.update trivial
    · exact holds.update trivial
  · dsimp only
    split
    · exact Holds.update (w := { w with entries := _ }) holds trivial
    · exact Holds.update (w := { w with entries := _ }) holds trivial

omit [SearchPlatform] [DecidableEq C] in
theorem Holds.outcome (holds : w.Holds P Q) {output : WebSearchResultSet}
    (answered : w.outcomeOf id = some (.ok output)) : P output := by
  unfold outcomeOf at answered
  split at answered
  · rename_i call found
    split at answered
    · rename_i settled
      cases answered
      have held := holds id call found
      unfold SearchCall.Holds at held
      rw [settled] at held
      exact held
    · cases answered
  · cases answered
  · cases answered

omit [SearchPlatform] [DecidableEq C] in
theorem Holds.follow (holds : w.Holds P Q) (owner : CallId C) (one : call.Holds P Q) : (w.follow owner call).Holds P Q := by
  unfold SearchService.follow
  split
  · rename_i outcome answered
    cases outcome with
    | error code => trivial
    | ok output => exact holds.outcome answered
  · exact one

/-- What the normalization guarantees of outputs and results is kept by every step. -/
theorem holds_step (kept : Kept limits P Q) (holds : w.Holds P Q) (action : SearchAction C) :
    (w.step limits hooks action).Holds P Q := by
  cases action with
  | advance milliseconds => exact holds
  | answer id output => exact holds.withCall fun call held => holds_answer held id.1 output
  | abort id =>
    refine holds.withCall fun call held => ?_
    have marked : { call with aborted := true }.Holds P Q := held
    exact holds_abortController marked
  | fire id => exact holds.withCall fun call held => holds_fire held _
  | markSettled id =>
    unfold step
    dsimp only
    split <;> exact holds
  | resume id =>
    unfold step
    dsimp only
    split
    · rename_i call found
      split
      · exact holds.proceed _
      · exact holds.update (holds.follow _ (holds id call found))
      · exact holds.update (holds_resume kept (holds id call found))
    · exact holds
  | search id input context =>
    unfold step
    dsimp only
    split
    · exact holds
    · intro other call found
      by_cases same : other = id
      · have here : (if other = id then some (begin limits hooks w.now input context) else w.calls other) =
            some (begin limits hooks w.now input context) := if_pos same
        obtain ⟨fingerprint, hashing⟩ := begin_hashing (Option.some.inj (here.symm.trans found))
        unfold SearchCall.Holds
        rw [hashing]
        trivial
      · have there : (if other = id then some (begin limits hooks w.now input context) else w.calls other) =
          w.calls other := if_neg same
        exact holds other call (there.symm.trans found)

theorem holds_run (kept : Kept limits P Q) (holds : w.Holds P Q) (actions : List (SearchAction C)) :
    (w.run limits hooks actions).Holds P Q := by
  induction actions generalizing w with
  | nil => exact holds
  | cons action rest ih => exact ih (holds_step kept holds action)

theorem outcome_holds (kept : Kept limits P Q) {now : Int} {actions : List (SearchAction C)} {output : WebSearchResultSet}
    (answered : ((create now).run limits hooks actions).outcomeOf id = some (.ok output)) : P output := by
  have start : (create now : SearchService C).Holds P Q := by
    intro id call found
    cases found
  exact (holds_run kept start actions).outcome answered

end SearchService

/-! ### One URL, one result -/

def DistinctUrls (output : WebSearchResultSet) : Prop := (output.results.map WebSearchResult.url).Nodup

theorem distinct_kept (limits : WebSearchLimits) : Kept limits DistinctUrls fun _ => True where
  nothing := List.nodup_nil
  normalized _ _ _ _ _ := trivial
  retain := by
    intro retained candidate source distinct _ retains
    unfold DistinctUrls
    rw [List.map_append, List.map_singleton]
    refine List.nodup_append.mpr ⟨distinct, List.nodup_singleton _, fun url seen other one same => ?_⟩
    obtain ⟨result, member, rfl⟩ := List.mem_map.mp seen
    rw [List.mem_singleton] at one
    have fresh := List.any_eq_false.mp retains.2.1 result member
    exact fresh (beq_iff_eq.mpr (same.trans one))

end

end Handrail.Search

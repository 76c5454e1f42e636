import Handrail.Search.SearchService

/-!
# What an operation has passed

An operation answers with results only after `authorize` has let the request through for the context it runs under, and
`validateUrl` and `acceptResult` every result.
-/

namespace Handrail.Search
open Js

variable {C : Type} {hooks : SearchHooks C} {context : C} {call : SearchCall C} {limits : WebSearchLimits}

/-- `authorize` lets the request through for a deadline. -/
def Authorized (hooks : SearchHooks C) (context : C) (input : NormalizedInput) : Prop :=
  ∃ deadlineAt, hooks.authorize {
    query := input.query
    maxResults := input.maxResults
    idempotencyKey := input.idempotencyKey
    deadlineAt
    applicationContext := context } = some true

section
variable [SearchPlatform]

/-- `validateUrl` lets the URL through at its place among the URLs of a result. -/
def AllowsUrl (hooks : SearchHooks C) (context : C) (index : Nat) (url : JsString) : Prop :=
  ∃ parsed, WebPlatform.parseUrl url = some parsed ∧ hooks.validateUrl {
    applicationContext := context
    url
    hostname := parsed.hostname
    redirectIndex := if index = 0 then none else some (index - 1) } = some true

/-- The URL that the result was found under and every redirect are let through, the last of which is the result's URL, and
so is the result. -/
def AllowedResult (hooks : SearchHooks C) (context : C) (result : WebSearchResult) : Prop :=
  (∃ initial, result.url = (result.redirectUrls.getLast?).getD initial ∧
    ∀ index url, (initial :: result.redirectUrls)[index]? = some url → AllowsUrl hooks context index url) ∧
  hooks.acceptResult ⟨context, result⟩ = some true

def Allowed (hooks : SearchHooks C) (context : C) (input : NormalizedInput) (output : WebSearchResultSet) : Prop :=
  Authorized hooks context input ∧ ∀ result ∈ output.results, AllowedResult hooks context result

def Passed (hooks : SearchHooks C) (context : C) (input : NormalizedInput) : SearchAwait → Prop
  | .authorize => True
  | .adapter => Authorized hooks context input
  | .validateUrl index url hostname position =>
    Allowed hooks context input position.retained ∧ position.candidate.validationUrls[index]? = some url ∧
      (∃ parsed, WebPlatform.parseUrl url = some parsed ∧ parsed.hostname = hostname) ∧
      ∀ before earlier, before < index → position.candidate.validationUrls[before]? = some earlier →
        AllowsUrl hooks context before earlier
  | .acceptResult position =>
    Allowed hooks context input position.retained ∧
      ∀ index url, position.candidate.validationUrls[index]? = some url → AllowsUrl hooks context index url

def Going (hooks : SearchHooks C) (context : C) (call : SearchCall C) : Prop :=
  match call.phase with
  | .awaiting await reply => Passed hooks context call.input await ∧
    ∀ answer, reply = some answer → answer = .aborted ∨ ∃ output, answer = SearchCall.replyOf hooks context call output await
  | .settled (.ok output) => Allowed hooks context call.input output
  | _ => True

/-! ### The operation -/

theorem going_enter {await : SearchAwait} (passed : Passed hooks context call.input await) :
    Going hooks context (call.enter await) := by
  refine ⟨passed, fun answer replied => .inl ?_⟩
  split at replied
  · exact (Option.some.inj replied).symm
  · cases replied

theorem going_caught (code : WebSearchErrorCode) : Going hooks context (call.caught code) := by
  unfold SearchCall.caught
  split <;> trivial

theorem going_nextUrl {index : Nat} {position : Position} (retained : Allowed hooks context call.input position.retained)
    (before : ∀ earlier url, earlier < index → position.candidate.validationUrls[earlier]? = some url →
      AllowsUrl hooks context earlier url) : Going hooks context (call.nextUrl index position) := by
  unfold SearchCall.nextUrl
  split
  · rename_i finished
    refine going_enter ⟨retained, fun earlier url found => before earlier url ?_ found⟩
    have small := (List.getElem?_eq_some_iff.mp found).1
    have large := List.getElem?_eq_none_iff.mp finished
    omega
  · rename_i url found
    split
    · rename_i parsed read
      exact going_enter ⟨retained, found, ⟨parsed, read, rfl⟩, fun earlier url small at_ => before earlier url small at_⟩
    · exact going_caught _

theorem going_nextCandidate {candidates : List CandidateResult} {retained : WebSearchResultSet}
    (allowed : Allowed hooks context call.input retained) :
    Going hooks context (call.nextCandidate limits candidates retained) := by
  unfold SearchCall.nextCandidate
  split
  · exact going_nextUrl allowed fun earlier url small => (Nat.not_lt_zero _ small).elim
  · split
    · trivial
    · exact allowed

theorem going_accept {position : Position} (retained : Allowed hooks context call.input position.retained)
    (urls : ∀ index url, position.candidate.validationUrls[index]? = some url → AllowsUrl hooks context index url)
    (accepted : hooks.acceptResult ⟨context, position.candidate.result⟩ = some true) :
    Going hooks context (call.accept limits position) := by
  unfold SearchCall.accept
  dsimp only
  split
  · exact going_nextCandidate retained
  · split
    · refine going_nextCandidate ⟨retained.1, fun result member => ?_⟩
      rcases List.mem_append.mp member with old | new
      · exact retained.2 result old
      · rw [List.mem_singleton.mp new]
        exact ⟨⟨position.candidate.initial, position.candidate.effective, urls⟩, accepted⟩
    · exact going_caught _

omit [SearchPlatform] in
theorem decided_of_reply {await : SearchAwait} {answer : Option Bool}
    (asked : ∀ output, SearchCall.replyOf hooks context call output await = SearchCall.ofHook answer)
    (replied : SearchReply.decided true = .aborted ∨
      ∃ output, SearchReply.decided true = SearchCall.replyOf hooks context call output await) : answer = some true := by
  rcases replied with aborted | ⟨output, decided⟩
  · cases aborted
  · rw [asked output] at decided
    unfold SearchCall.ofHook at decided
    split at decided
    · injection decided with decided
      rw [decided]
    · cases decided

theorem going_resume (going : Going hooks context call) : Going hooks context (call.resume limits) := by
  unfold SearchCall.resume
  unfold Going at going
  split
  · trivial
  · rename_i phase
    rw [phase] at going
    obtain ⟨-, replied⟩ := going
    refine going_enter ⟨call.deadlineAt, ?_⟩
    exact decided_of_reply (fun _ => rfl) (replied _ rfl)
  · exact going_caught _
  · trivial
  · rename_i value phase
    rw [phase] at going
    split
    · exact going_nextCandidate ⟨going.1, fun result member => by cases member⟩
    · trivial
  · exact going_caught _
  · rename_i index url hostname position phase
    rw [phase] at going
    obtain ⟨⟨retained, found, ⟨parsed, read, named⟩, before⟩, replied⟩ := going
    have allowed : AllowsUrl hooks context index url := by
      refine ⟨parsed, read, ?_⟩
      rw [named]
      exact decided_of_reply (fun _ => rfl) (replied _ rfl)
    refine going_nextUrl retained fun earlier other small at_ => ?_
    by_cases last : earlier = index
    · rw [last] at at_ ⊢
      cases found.symm.trans at_
      exact allowed
    · exact before earlier other (by omega) at_
  · rename_i position phase
    rw [phase] at going
    obtain ⟨⟨retained, urls⟩, replied⟩ := going
    exact going_accept retained urls (decided_of_reply (fun _ => rfl) (replied _ rfl))
  · exact going_caught _
  · exact going_caught _
  · trivial
  · trivial
  · exact going

theorem going_answer (going : Going hooks context call) (output : Option JsValue) :
    Going hooks context (call.answer hooks context output) := by
  unfold SearchCall.answer
  split
  · rename_i await phase
    unfold Going at going
    rw [phase] at going
    refine ⟨going.1, fun answer replied => .inr ⟨output, ?_⟩⟩
    exact (Option.some.inj replied).symm
  · exact going

theorem going_abortController (going : Going hooks context call) : Going hooks context call.abortController := by
  unfold SearchCall.abortController
  split
  · rename_i await phase
    unfold Going at going
    rw [phase] at going
    exact ⟨going.1, fun answer replied => .inl (Option.some.inj replied).symm⟩
  · rename_i await reply _ phase
    exact going
  · exact going

theorem going_abort (going : Going hooks context call) : Going hooks context call.abort := by
  have marked : Going hooks context { call with aborted := true } := going
  exact going_abortController marked

theorem going_fire (going : Going hooks context call) (now : Int) : Going hooks context (call.fire now) := by
  unfold SearchCall.fire
  split
  · split
    · have late : Going hooks context { call with timedOut := true } := going
      exact going_abortController late
    · exact going
  · exact going

end

/-! ### The request of a call -/

def Remains (call next : SearchCall C) : Prop :=
  next.input = call.input ∧ ∀ owner, next.phase = .joined owner → call.phase = .joined owner

theorem remains_self (call : SearchCall C) : Remains call call := ⟨rfl, fun _ joined => joined⟩

theorem remains_enter (await : SearchAwait) : Remains call (call.enter await) := ⟨rfl, fun _ joined => by cases joined⟩

theorem remains_settle (outcome : Except WebSearchErrorCode WebSearchResultSet) : Remains call (call.settle outcome) :=
  ⟨rfl, fun _ joined => by cases joined⟩

theorem remains_caught (code : WebSearchErrorCode) : Remains call (call.caught code) := by
  unfold SearchCall.caught
  split
  · exact remains_settle _
  · exact remains_settle _

theorem remains_abortController (call : SearchCall C) : Remains call call.abortController := by
  unfold SearchCall.abortController
  split
  · exact ⟨rfl, fun _ joined => by cases joined⟩
  · exact ⟨rfl, fun _ joined => joined⟩
  · exact remains_self call

theorem remains_abort : Remains call call.abort := by
  obtain ⟨same, joined⟩ := remains_abortController { call with aborted := true }
  exact ⟨same, joined⟩

theorem remains_fire (now : Int) : Remains call (call.fire now) := by
  unfold SearchCall.fire
  split
  · split
    · obtain ⟨same, joined⟩ := remains_abortController { call with timedOut := true }
      exact ⟨same, joined⟩
    · exact remains_self call
  · exact remains_self call

theorem remains_answer (output : Option JsValue) : Remains call (call.answer hooks context output) := by
  unfold SearchCall.answer
  split
  · exact ⟨rfl, fun _ joined => by cases joined⟩
  · exact remains_self call

section
variable [SearchPlatform]

theorem remains_nextUrl (index : Nat) (position : Position) : Remains call (call.nextUrl index position) := by
  unfold SearchCall.nextUrl
  split
  · exact remains_enter _
  · split
    · exact remains_enter _
    · exact remains_caught _

theorem remains_nextCandidate (candidates : List CandidateResult) (retained : WebSearchResultSet) :
    Remains call (call.nextCandidate limits candidates retained) := by
  unfold SearchCall.nextCandidate
  split
  · exact remains_nextUrl _ _
  · split
    · exact remains_settle _
    · exact remains_settle _

theorem remains_accept (position : Position) : Remains call (call.accept limits position) := by
  unfold SearchCall.accept
  dsimp only
  split
  · exact remains_nextCandidate _ _
  · split
    · exact remains_nextCandidate _ _
    · exact remains_caught _

theorem remains_resume : Remains call (call.resume limits) := by
  unfold SearchCall.resume
  split
  · exact remains_settle _
  · exact remains_enter _
  · exact remains_caught _
  · exact remains_settle _
  · split
    · exact remains_nextCandidate _ _
    · exact remains_settle _
  · exact remains_caught _
  · exact remains_nextUrl _ _
  · exact remains_accept _
  · exact remains_caught _
  · exact remains_caught _
  · exact remains_settle _
  · exact remains_settle _
  · exact remains_self call

end

end Handrail.Search

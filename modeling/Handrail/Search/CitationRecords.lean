import Handrail.Citations.Projection
import Handrail.JsonSize
import Handrail.Search.CitedSearches

/-!
# Citation records of searches

What the searches answer with, the sources in the order of the results, is normalized to citation records for every target.
-/

namespace Handrail.Search
open Js
open Whatwg (UrlPlatform UrlStandard)

def createWebSearchCitationRecords [SearchPlatform] (resultSet : WebSearchResultSet) (target : Json) :
    Checked CitationRecordSet :=
  normalizeCitationRecords (some (recordsOf (resultSet.sources.map CitationSource.codec.encode)
    (resultSet.sources.mapIdx fun order source => .obj [(js "citation_id", .str (js "web_search:" ++ source.sourceId)),
      (js "source_id", .str source.sourceId), (js "order", .num (.ofNat order)), (js "target", target)])))

variable {C : Type} {hooks : SearchHooks C} {limits : WebSearchLimits} {call : SearchCall C}

/-! ### How many results there are -/

def Few (call : SearchCall C) : Prop :=
  call.input.maxResults ≤ ceilings.requestedResults ∧
    match call.phase with
    | .awaiting (.validateUrl _ _ _ position) _ => position.retained.results.length ≤ ceilings.requestedResults
    | .awaiting (.acceptResult position) _ => position.retained.results.length ≤ ceilings.requestedResults
    | .settled (.ok output) => output.results.length ≤ ceilings.requestedResults
    | _ => True

theorem few_error (few : Few call) (code : WebSearchErrorCode) : Few (call.fail code) := ⟨few.1, trivial⟩

theorem few_caught (few : Few call) (code : WebSearchErrorCode) : Few (call.caught code) := by
  unfold SearchCall.caught SearchCall.interrupt
  split <;> exact few_error few _

section
variable [SearchPlatform]

theorem few_nextUrl (few : Few call) {index : Nat} {position : Position}
    (short : position.retained.results.length ≤ ceilings.requestedResults) : Few (call.nextUrl index position) := by
  unfold SearchCall.nextUrl
  split
  · exact ⟨few.1, short⟩
  · split
    · exact ⟨few.1, short⟩
    · exact few_caught few _

theorem few_nextCandidate (few : Few call) {candidates : List CandidateResult} {retained : WebSearchResultSet}
    (short : retained.results.length ≤ ceilings.requestedResults) : Few (call.nextCandidate limits candidates retained) := by
  unfold SearchCall.nextCandidate
  split
  · exact few_nextUrl few short
  · split
    · exact few_error few _
    · exact ⟨few.1, short⟩

theorem few_accept (few : Few call) {position : Position} (short : position.retained.results.length ≤ ceilings.requestedResults) :
    Few (call.accept limits position) := by
  unfold SearchCall.accept
  dsimp only
  split
  · exact few_nextCandidate few short
  · rename_i room
    have asked := few.1
    split
    · refine few_nextCandidate few ?_
      rw [List.length_append, List.length_singleton]
      omega
    · exact few_caught few _

theorem few_resume (few : Few call) : Few (call.resume limits) := by
  have held := few.2
  unfold SearchCall.resume
  split
  · exact few_error few _
  · exact ⟨few.1, trivial⟩
  · exact few_caught few _
  · exact few_error few _
  · split
    · exact few_nextCandidate few (Nat.zero_le _)
    · exact few_error few _
  · exact few_caught few _
  · rename_i phase
    rw [phase] at held
    exact few_nextUrl few held
  · rename_i phase
    rw [phase] at held
    exact few_accept few held
  · exact few_caught few _
  · exact few_caught few _
  · exact few_error few _
  · exact few_error few _
  · exact few

end

theorem few_answer (few : Few call) (context : C) (output : Option JsValue) : Few (call.answer hooks context output) := by
  unfold SearchCall.answer
  split
  · rename_i await phase
    have held := few.2
    rw [phase] at held
    cases await <;> exact ⟨few.1, held⟩
  · exact few

theorem few_abortController (few : Few call) : Few call.abortController := by
  unfold SearchCall.abortController
  split
  · rename_i await phase
    have held := few.2
    rw [phase] at held
    cases await <;> exact ⟨few.1, held⟩
  · exact few
  · exact few

theorem few_fire (few : Few call) (now : Int) : Few (call.fire now) := by
  unfold SearchCall.fire
  split
  · split
    · have late : Few { call with timedOut := true } := few
      exact few_abortController late
    · exact few
  · exact few

theorem normalizeInput_few {value : JsValue} {input : NormalizedInput} (read : normalizeInput limits value = some input) :
    input.maxResults ≤ ceilings.requestedResults := by
  unfold normalizeInput at read
  split at read
  · simp only [bind, Option.bind_eq_some_iff] at read
    obtain ⟨_, -, query, -, _, -, rest⟩ := read
    split at rest
    · obtain ⟨maxResults, asked, later⟩ := Option.bind_eq_some_iff.mp rest
      obtain ⟨key, -, later⟩ := Option.bind_eq_some_iff.mp later
      obtain ⟨_, -, same⟩ := Option.bind_eq_some_iff.mp later
      cases same
      obtain ⟨-, range⟩ := Option.filter_eq_some_iff.mp asked
      exact (of_decide_eq_true range).2.trans limits.requestedInRange.2
    · cases rest
  · cases read

namespace SearchService
variable [DecidableEq C] {w : SearchService C} {id : CallId C}

def AllFew (w : SearchService C) : Prop := ∀ id call, w.calls id = some (.ok call) → Few call

theorem AllFew.update (all : w.AllFew) {next : SearchCall C} (one : Few next) : (w.update id next).AllFew := by
  intro other call found
  by_cases same : other = id
  · have here : (w.update id next).calls other = some (.ok next) := if_pos same
    cases here.symm.trans found
    exact one
  · have there : (w.update id next).calls other = w.calls other := if_neg same
    exact all other call (there.symm.trans found)

theorem AllFew.withCall (all : w.AllFew) {move : SearchCall C → SearchCall C} (moved : ∀ call, Few call → Few (move call)) :
    (w.withCall id move).AllFew := by
  unfold SearchService.withCall
  split
  · rename_i call found
    exact all.update (moved call (all id call found))
  · exact all

omit [DecidableEq C] in
theorem AllFew.outcome (all : w.AllFew) {output : WebSearchResultSet} (answered : w.outcomeOf id = some (.ok output)) :
    output.results.length ≤ ceilings.requestedResults := by
  unfold outcomeOf at answered
  split at answered
  · rename_i call found
    split at answered
    · rename_i settled
      cases answered
      have held := (all id call found).2
      rw [settled] at held
      exact held
    · cases answered
  · cases answered
  · cases answered

omit [DecidableEq C] in
theorem few_begin {now : Int} {input : JsValue} {context : SearchContext}
    (begun : begin limits hooks now input context = .ok call) :
    Few call := by
  unfold begin at begun
  split at begun
  · rename_i normalized deadlineAt read _
    have asked := normalizeInput_few read
    split at begun
    · cases begun
    · split at begun
      · cases begun
      · split at begun
        · cases begun
        · split at begun
          · cases begun
          · cases begun
            exact ⟨asked, trivial⟩
  · cases begun

variable [SearchPlatform]

theorem allFew_step (all : w.AllFew) (action : SearchAction C) : (w.step limits hooks action).AllFew := by
  cases action with
  | advance milliseconds => exact all
  | answer id output => exact all.withCall fun call few => few_answer few id.1 output
  | abort id =>
    refine all.withCall fun call few => ?_
    have marked : Few { call with aborted := true } := few
    exact few_abortController marked
  | fire id => exact all.withCall fun call few => few_fire few _
  | markSettled id =>
    unfold step
    dsimp only
    split <;> exact all
  | resume id =>
    unfold step
    dsimp only
    split
    · rename_i call found
      have few := all id call found
      split
      · unfold proceed
        split
        · split
          · exact all.update (few_error few _)
          · exact all.update ⟨few.1, trivial⟩
        · dsimp only
          split
          · exact AllFew.update (w := { w with entries := _ }) all ⟨few.1, trivial⟩
          · exact AllFew.update (w := { w with entries := _ }) all (few_error few _)
      · refine all.update ?_
        unfold SearchService.follow
        split
        · rename_i outcome answered
          cases outcome with
          | error code => exact few_error few code
          | ok output => exact ⟨few.1, all.outcome answered⟩
        · exact few
      · exact all.update (few_resume few)
    · exact all
  | search id input context =>
    unfold step
    dsimp only
    split
    · exact all
    · intro other call found
      by_cases same : other = id
      · exact few_begin (Option.some.inj ((if_pos same).symm.trans found))
      · exact all other call ((if_neg same).symm.trans found)

theorem allFew_run (all : w.AllFew) (actions : List (SearchAction C)) : (w.run limits hooks actions).AllFew := by
  induction actions generalizing w with
  | nil => exact all
  | cons action rest ih => exact ih (allFew_step all action)

end SearchService
/-! ### What is retained -/

section
variable [WhatwgPlatform]

structure CitedSet (output : WebSearchResultSet) : Prop where
  sources : output.sources = output.results.map WebSearchResult.source
  fits : ∀ result ∈ output.results, ∃ candidate : CandidateResult, Fits candidate ∧ candidate.result = result
  distinct : (output.results.map WebSearchResult.sourceId).Nodup

theorem cited_kept [UrlStandard] (limits : WebSearchLimits) : Kept limits CitedSet CandidateResult.Sound where
  nothing := ⟨rfl, by rintro result ⟨⟩, List.nodup_nil⟩
  normalized _ _ accepted := normalizeAdapterOutput_sound accepted
  retain := by
    intro retained candidate source cited sound retains
    obtain ⟨citable, rfl⟩ := (sourceOf_eq_some sound).mp retains.1
    refine ⟨?_, ?_, ?_⟩
    · rw [List.map_append, ← cited.sources]
      rfl
    · intro result member
      rcases List.mem_append.mp member with earlier | last
      · exact cited.fits result earlier
      · exact ⟨candidate, ⟨sound, citable⟩, (List.mem_singleton.mp last).symm⟩
    · rw [List.map_append, List.map_singleton]
      refine List.nodup_append.mpr ⟨cited.distinct, List.nodup_singleton _, fun id seen other one same => ?_⟩
      obtain ⟨result, member, rfl⟩ := List.mem_map.mp seen
      rw [List.mem_singleton] at one
      have fresh := List.any_eq_false.mp retains.2.2 result member
      exact fresh (beq_iff_eq.mpr (same.trans one))

end

/-! ### Names of citations -/

def bearerPattern : Pattern := .all [.wordBoundary, .word "bearer", .repeats (.unit isWhitespace) 1 none,
  .repeats (alphanumericOr "._~+/=-") 8 none]

def secretKeyPattern : Pattern := .all [.any [.start, .unit fun c => !Pattern.isAlphanumeric c], .word "sk-",
  .repeats (alphanumericOr "_-") 8 none, .wordBoundary]

def privateKeyPattern : Pattern := .all [.word "-----begin ", .any [.word "rsa ", .word "ec ", .word "openssh ", .empty],
  .word "private key-----"]

theorem testFrom_before {pattern : Pattern} {before other : Option UInt16}
    (same : ∀ units, pattern.ends ⟨before, units⟩ = pattern.ends ⟨other, units⟩) (units : List UInt16) :
    pattern.testFrom before units = pattern.testFrom other units := by
  cases units with
  | nil => simp only [Pattern.testFrom, same]
  | cons c rest => simp only [Pattern.testFrom, same]

theorem bearer_before (units : List UInt16) : bearerPattern.ends ⟨some 58, units⟩ = bearerPattern.ends ⟨none, units⟩ := by
  cases units with
  | nil => rfl
  | cons c rest =>
    have colon : isWordUnit 58 = false := by decide
    cases boundary : isWordUnit c with
    | false => simp [bearerPattern, Pattern.all, Pattern.ends, colon, boundary]
    | true =>
      simp only [bearerPattern, Pattern.all, List.foldr_cons, Pattern.ends, Option.any_some, Option.any_none,
        List.head?_cons, colon,
        boundary]
      rfl

theorem bearer_prefixed (name : JsString) : bearerPattern.test (js "web_search:" ++ name) = bearerPattern.test name := by
  have passed : bearerPattern.testFrom none ((js "web_search:").units ++ name.units) =
    bearerPattern.testFrom (some 58) name.units := rfl
  rw [Pattern.test, JsString.units_append, passed]
  exact testFrom_before bearer_before name.units

theorem privateKey_prefixed (name : JsString) :
    privateKeyPattern.test (js "web_search:" ++ name) = privateKeyPattern.test name := by
  have passed : privateKeyPattern.testFrom none ((js "web_search:").units ++ name.units) =
      privateKeyPattern.testFrom (some 58) name.units := rfl
  rw [Pattern.test, JsString.units_append, passed]
  refine testFrom_before (fun units => ?_) name.units
  cases units <;> rfl

def secretKeyBody : Pattern := .all [.word "sk-", .repeats (alphanumericOr "_-") 8 none, .wordBoundary]

theorem secretKeyBody_before (before other : Option UInt16) (units : List UInt16) :
    secretKeyBody.ends ⟨before, units⟩ = secretKeyBody.ends ⟨other, units⟩ := by
  cases units <;> rfl

theorem secretKey_ends (p : Js.Position) : secretKeyPattern.ends p = (Pattern.start.ends p).flatMap secretKeyBody.ends ++
    ((Pattern.unit fun c => !Pattern.isAlphanumeric c).ends p).flatMap secretKeyBody.ends := by
  have parts : secretKeyPattern.ends p = (Pattern.start.ends p ++ ((Pattern.unit fun c => !Pattern.isAlphanumeric c).ends p ++
      (Pattern.unit fun _ => false).ends p)).flatMap secretKeyBody.ends := rfl
  have none_ : (Pattern.unit fun _ => false).ends p = [] := by
    rcases p with ⟨before, _ | ⟨c, rest⟩⟩ <;> rfl
  rw [parts, none_, List.append_nil, List.flatMap_append]

theorem secretKey_prefixed (name : JsString) : secretKeyPattern.test (js "web_search:" ++ name) = secretKeyPattern.test name := by
  have passed : secretKeyPattern.testFrom none ((js "web_search:").units ++ name.units) =
      (!(secretKeyPattern.ends ⟨some 104, 58 :: name.units⟩).isEmpty || secretKeyPattern.testFrom (some 58) name.units) := rfl
  rw [Pattern.test, JsString.units_append, passed, Pattern.test]
  cases name.units with
  | nil => rfl
  | cons c rest =>
    simp only [Pattern.testFrom]
    rw [← Bool.or_assoc]
    refine congrArg (· || secretKeyPattern.testFrom (some c) rest) ?_
    have colon : secretKeyPattern.ends ⟨some 104, 58 :: c :: rest⟩ = secretKeyBody.ends ⟨some 58, c :: rest⟩ := by
      rw [secretKey_ends]
      exact List.append_nil _
    have first : secretKeyPattern.ends ⟨none, c :: rest⟩ = secretKeyBody.ends ⟨some 58, c :: rest⟩ ++
        secretKeyPattern.ends ⟨some 58, c :: rest⟩ := by
      rw [secretKey_ends, secretKey_ends, secretKeyBody_before (some 58) none]
      have started : (Pattern.start.ends ⟨none, c :: rest⟩).flatMap secretKeyBody.ends = secretKeyBody.ends ⟨none, c :: rest⟩ :=
        List.append_nil _
      rw [started]
      rfl
    rw [colon, first]
    cases secretKeyBody.ends ⟨some 58, c :: rest⟩ <;> rfl

theorem credential_prefixed (name : JsString) : matchesAny citationCredentialPatterns (js "web_search:" ++ name) =
    matchesAny citationCredentialPatterns name := by
  have each : citationCredentialPatterns = [bearerPattern, secretKeyPattern, privateKeyPattern] := rfl
  simp only [matchesAny, each, List.any_cons, List.any_nil, bearer_prefixed, secretKey_prefixed, privateKey_prefixed]

theorem further_units {accepts : UInt16 → Bool} {units : List UInt16} (each : ∀ c ∈ units, accepts c = true) {fuel : Nat}
    (room : units.length ≤ fuel) (before : Option UInt16) :
    ∃ last, ⟨last, []⟩ ∈ Pattern.further (Pattern.unit accepts).ends fuel ⟨before, units⟩ := by
  induction units generalizing fuel before with
  | nil => cases fuel <;> exact ⟨before, List.mem_cons_self⟩
  | cons c rest ih =>
    cases fuel with
    | zero => cases room
    | succ fuel =>
      obtain ⟨last, reached⟩ := ih (fun d member => each d (List.mem_cons_of_mem _ member)) (Nat.le_of_succ_le_succ room) (some c)
      refine ⟨last, List.mem_cons_of_mem _ (List.mem_flatMap.mpr ⟨⟨some c, rest⟩, List.mem_filter.mpr ⟨?_, ?_⟩, reached⟩)⟩
      · simp [Pattern.ends, each c List.mem_cons_self]
      · simp

def identifierUnit (c : UInt16) : Bool := Pattern.isAlphanumeric c || Pattern.oneOf "._:@-" c

theorem identifier_units {name : JsString} (named : identifierPattern.test name = true) :
    ∀ c ∈ name.units, identifierUnit c = true := by
  refine Pattern.test_whole [.unit Pattern.isAlphanumeric, .repeats (alphanumericOr "._:@-") 0 none] ?_ named
  exact ⟨fun c letter => Bool.or_eq_true _ _ |>.mpr (.inl letter), fun c accepted => accepted, trivial, trivial⟩

theorem identifier_printable {name : JsString} (named : identifierPattern.test name = true) : Printable name := by
  intro c member
  rcases Bool.or_eq_true _ _ |>.mp (identifier_units named c member) with letter | other
  · simp only [Pattern.isAlphanumeric, isWordUnit, Bool.and_eq_true, Bool.or_eq_true, decide_eq_true_eq, beq_iff_eq,
      UInt16.le_iff_toNat_le, ← UInt16.toNat_inj, UInt16.reduceToNat] at letter
    simp only [UInt16.lt_iff_toNat_lt, UInt16.reduceToNat]
    omega
  · have each : ∀ d ∈ (js "._:@-").units, 0x20 < d ∧ d < 0x7f := units_pass (by decide +kernel)
    exact each c (List.contains_iff_mem.mp other)

theorem identifier_prefixed {name : JsString} (named : identifierPattern.test name = true) :
    identifierPattern.test (js "web_search:" ++ name) = true := by
  have literal : (js "web_search:" ++ name).units = 119 :: ([101, 98, 95, 115, 101, 97, 114, 99, 104, 58] ++ name.units) := rfl
  have each : ∀ c ∈ ([101, 98, 95, 115, 101, 97, 114, 99, 104, 58] ++ name.units : List UInt16), identifierUnit c = true := by
    intro c member
    have front : ∀ d ∈ ([101, 98, 95, 115, 101, 97, 114, 99, 104, 58] : List UInt16), identifierUnit d = true :=
      units_pass (by decide +kernel)
    rcases List.mem_append.mp member with early | later
    · exact front c early
    · exact identifier_units named c later
  obtain ⟨last, reached⟩ := further_units each (Nat.le_refl _) (some 119)
  have matched : ⟨last, []⟩ ∈ identifierPattern.ends ⟨none, (js "web_search:" ++ name).units⟩ := by
    rw [literal]
    refine List.mem_flatMap.mpr ⟨_, List.mem_singleton_self _,
      List.mem_flatMap.mpr ⟨⟨some 119, _⟩, List.mem_singleton_self _, ?_⟩⟩
    exact List.mem_flatMap.mpr ⟨_, reached, List.mem_singleton_self _⟩
  rw [literal] at matched
  rw [Pattern.test, literal, Pattern.testFrom, Bool.or_eq_true]
  left
  cases found : identifierPattern.ends ⟨none, 119 :: ([101, 98, 95, 115, 101, 97, 114, 99, 104, 58] ++ name.units)⟩ with
  | nil =>
    rw [found] at matched
    cases matched
  | cons place others => rfl

/-! ### The records of a result -/

section
variable [WhatwgPlatform] {candidate : CandidateResult} {output : WebSearchResultSet}

/-- `web_search:${source.source_id}` -/
def citationName (sourceId : JsString) : JsString := js "web_search:" ++ sourceId

theorem sourceId_length (sound : candidate.Sound) : candidate.result.sourceId.length ≤ ceilings.sourceIdLength := by
  obtain ⟨value, kept⟩ := sound.sourceId
  obtain ⟨raw, -, -, -, short, -⟩ := boundedText_eq_some.mp kept
  exact (length_le_utf8Bytes _).trans short

theorem title_length (sound : candidate.Sound) : candidate.result.title.length ≤ ceilings.titleUtf8Bytes := by
  obtain ⟨value, kept⟩ := sound.title
  obtain ⟨raw, -, -, -, short, -⟩ := boundedText_eq_some.mp kept
  exact (length_le_utf8Bytes _).trans short

theorem url_bounds [UrlStandard] (sound : candidate.Sound) :
    candidate.result.url.length ≤ ceilings.urlUtf8Bytes ∧ Printable candidate.result.url := by
  obtain ⟨value, canonical⟩ := sound.url
  obtain ⟨raw, record, -, read, -, -, short, same⟩ := canonicalUrl_eq_some.mp canonical
  have printable : Printable (canonicalRecord record (hostName record.host)).href :=
    UrlStandard.printable _ (reached_canonicalRecord read _)
  rw [← same] at printable
  exact ⟨(length_le_utf8Bytes _).trans short, printable⟩

omit [WhatwgPlatform] in
theorem length_citationName (sourceId : JsString) : (citationName sourceId).length = 11 + sourceId.length := by
  have literal : (js "web_search:").units.length = 11 := by decide
  simp [citationName, JsString.length, literal]

omit [WhatwgPlatform] in
theorem citationName_inj {a b : JsString} (same : citationName a = citationName b) : a = b := by
  have units := congrArg JsString.units same
  simp only [citationName, JsString.units_append] at units
  exact JsString.ext (List.append_cancel_left units)

theorem citationName_identifier (fits : Fits candidate) :
    citationIdentifier (some (.str (citationName candidate.result.sourceId))) =
    .ok (citationName candidate.result.sourceId) := by
  have named : identifierPattern.test (citationName candidate.result.sourceId) = true := identifier_prefixed fits.1.named
  have printable := identifier_printable named
  have length := length_citationName candidate.result.sourceId
  have short : candidate.result.sourceId.length ≤ 192 := sourceId_length fits.1
  have clean : matchesAny citationCredentialPatterns (citationName candidate.result.sourceId) = false :=
    (credential_prefixed _).trans fits.2.sourceId
  refine bind_eq_ok.mpr ⟨_,
    boundedString_eq_ok.mpr ⟨_, rfl, ?_, printable.trim_eq.symm, ?_, printable.no_controls, clean⟩, if_pos named⟩
  · rw [length]
    exact Nat.add_le_add_left short 11 |>.trans (by decide)
  · omega

def citationOf (target : CitationAttachmentTarget) (order : Nat) (source : CitationSource) : Citation :=
  ⟨citationName source.sourceId, source.sourceId, .ofNat order, target⟩

theorem normalizeCitation_of {target : Json} {attached : CitationAttachmentTarget}
    (valid : normalizeTarget (some target) = .ok attached)
    (fits : Fits candidate) {order : Nat} (few : order < ceilings.requestedResults) :
    normalizeCitation (some (.obj [(js "citation_id", .str (citationName candidate.result.sourceId)),
      (js "source_id", .str candidate.result.sourceId), (js "order", .num (.ofNat order)), (js "target", target)])) =
        .ok (citationOf attached order candidate.result.source) := by
  have keys : [js "citation_id", js "source_id", js "order", js "target"].Nodup := by decide
  have safe : order ≤ JsNumber.maxSafeInteger := (Nat.le_of_lt few).trans (by decide)
  have sourceId := (citationIdentifier_kept fits.1).mpr fits.2.sourceId
  simp only [normalizeCitation, under_eq_ok, bind_eq_ok, field_eq_ok]
  refine ⟨_, record_eq_ok.mpr ⟨rfl, keys⟩, (), requiredKeys_eq_ok.mpr ?_, (), allowedKeys_eq_ok.mpr ?_, .ofNat order, ?_,
    citationName candidate.result.sourceId, ?_, candidate.result.sourceId, ?_, attached, ?_, rfl⟩
  · intro key member
    simp only [List.mem_cons, List.not_mem_nil, or_false] at member
    rcases member with rfl | rfl | rfl | rfl <;> rfl
  · intro key member
    simp only [Json.keys, List.map_cons, List.map_nil, List.mem_cons, List.not_mem_nil, or_false] at member
    rcases member with rfl | rfl | rfl | rfl
    · exact ⟨"citation_id", by simp, rfl⟩
    · exact ⟨"source_id", by simp, rfl⟩
    · exact ⟨"order", by simp, rfl⟩
    · exact ⟨"target", by simp, rfl⟩
  · exact nonNegativeOrder_eq_ok.mpr ⟨rfl, by rw [JsNumber.safeNat?_ofNat safe]; rfl⟩
  · exact citationName_identifier fits
  · exact sourceId
  · exact valid

/-! ### The size of the records -/

omit [WhatwgPlatform] in
theorem string_size {text : JsString} {bound : Nat} (short : text.length ≤ bound) :
    utf8Bytes (textUnits (.str text)) ≤ 6 * bound + 2 :=
  (utf8Bytes_string text).trans (Nat.add_le_add_right (Nat.mul_le_mul_left 6 short) 2)

omit [WhatwgPlatform] in
theorem string_size_printable {text : JsString} (printable : Printable text) {bound : Nat} (short : text.length ≤ bound) :
    utf8Bytes (textUnits (.str text)) ≤ 2 * bound + 2 :=
  (utf8Bytes_printable printable).trans (Nat.add_le_add_right (Nat.mul_le_mul_left 2 short) 2)

theorem source_size [UrlStandard] (fits : Fits candidate) :
    utf8Bytes (textUnits (CitationSource.codec.encode candidate.result.source)) ≤ 7700 := by
  have written : CitationSource.codec.encode candidate.result.source = .obj [(js "source_id", .str candidate.result.sourceId),
      (js "type", .str (js "web")), (js "label", .str candidate.result.title), (js "locator", .str candidate.result.url)] := rfl
  have keys : utf8Bytes (quoteUnits (js "source_id")) = 11 ∧ utf8Bytes (quoteUnits (js "type")) = 6 ∧
      utf8Bytes (quoteUnits (js "label")) = 7 ∧ utf8Bytes (quoteUnits (js "locator")) = 9 ∧
      utf8Bytes (textUnits (.str (js "web"))) = 5 ∧ utf8Bytes (fieldUnits false []) = 1 := by decide
  obtain ⟨short, printable⟩ := url_bounds fits.1
  have named := string_size_printable (identifier_printable fits.1.named) (sourceId_length fits.1)
  have titled := string_size (title_length fits.1)
  have located := string_size_printable printable short
  rw [written, textUnits, utf8Bytes_cons_ascii (by decide)]
  simp only [utf8Bytes_fieldUnits_cons, keys, if_true, Bool.false_eq_true, if_false]
  have bounds : utf8Bytes (textUnits (.str candidate.result.sourceId)) ≤ 386 ∧
    utf8Bytes (textUnits (.str candidate.result.title)) ≤ 3074 ∧
      utf8Bytes (textUnits (.str candidate.result.url)) ≤ 4098 := ⟨named, titled, located⟩
  grind only

omit [WhatwgPlatform] in
theorem identifier_size {name : JsString} (normal : citationIdentifier (some (.str name)) = .ok name) :
    utf8Bytes (textUnits (.str name)) ≤ 514 := by
  obtain ⟨own, bounded, matched⟩ := bind_eq_ok.mp normal
  split at matched
  · rename_i named
    cases matched
    obtain ⟨raw, same, short, -⟩ := boundedString_eq_ok.mp bounded
    cases same
    exact string_size_printable (identifier_printable named) short
  · cases matched

omit [WhatwgPlatform] in
theorem target_size {target : CitationAttachmentTarget} (normal : target.Normal) :
    utf8Bytes (textUnits (CitationAttachmentTarget.codec.encode target)) ≤ 600 := by
  cases target with
  | assistantMessage messageId =>
    have written : textUnits (CitationAttachmentTarget.codec.encode (.assistantMessage messageId)) =
        123 :: fieldUnits true [(js "type", .str (js "assistant_message")), (js "message_id", .str messageId)] := rfl
    have keys : utf8Bytes (quoteUnits (js "type")) = 6 ∧ utf8Bytes (quoteUnits (js "message_id")) = 12 ∧
        utf8Bytes (textUnits (.str (js "assistant_message"))) = 19 ∧ utf8Bytes (fieldUnits false []) = 1 := by decide
    have size := identifier_size normal
    rw [written, utf8Bytes_cons_ascii (by decide)]
    simp only [utf8Bytes_fieldUnits_cons, keys, if_true, Bool.false_eq_true, if_false]
    omega
  | toolResult toolCallId =>
    have written : textUnits (CitationAttachmentTarget.codec.encode (.toolResult toolCallId)) =
        123 :: fieldUnits true [(js "type", .str (js "tool_result")), (js "tool_call_id", .str toolCallId)] := rfl
    have keys : utf8Bytes (quoteUnits (js "type")) = 6 ∧ utf8Bytes (quoteUnits (js "tool_call_id")) = 14 ∧
        utf8Bytes (textUnits (.str (js "tool_result"))) = 13 ∧ utf8Bytes (fieldUnits false []) = 1 := by decide
    have size := identifier_size normal
    rw [written, utf8Bytes_cons_ascii (by decide)]
    simp only [utf8Bytes_fieldUnits_cons, keys, if_true, Bool.false_eq_true, if_false]
    omega

omit [WhatwgPlatform] in
theorem order_size : ∀ order < ceilings.requestedResults, utf8Bytes (textUnits (.num (.ofNat order))) = 1 := by
  decide +kernel

theorem citation_size {target : CitationAttachmentTarget} (normal : target.Normal) (fits : Fits candidate) {order : Nat}
    (few : order < ceilings.requestedResults) :
    utf8Bytes (textUnits (Citation.codec.encode (citationOf target order candidate.result.source))) ≤ 1700 := by
  have written : Citation.codec.encode (citationOf target order candidate.result.source) =
      .obj [(js "citation_id", .str (citationName candidate.result.sourceId)), (js "source_id", .str candidate.result.sourceId),
        (js "order", .num (.ofNat order)), (js "target", CitationAttachmentTarget.codec.encode target)] := rfl
  have keys : utf8Bytes (quoteUnits (js "citation_id")) = 13 ∧ utf8Bytes (quoteUnits (js "source_id")) = 11 ∧
      utf8Bytes (quoteUnits (js "order")) = 7 ∧ utf8Bytes (quoteUnits (js "target")) = 8 ∧
      utf8Bytes (fieldUnits false []) = 1 := by decide
  have named := identifier_size (citationName_identifier fits)
  have sourceId := identifier_size ((citationIdentifier_kept fits.1).mpr fits.2.sourceId)
  have attached := target_size normal
  have digit := order_size order few
  rw [written, textUnits, utf8Bytes_cons_ascii (by decide)]
  simp only [utf8Bytes_fieldUnits_cons, keys, digit, if_true, Bool.false_eq_true, if_false]
  grind only

/-! ### All the records -/

theorem CitedSet.fit (cited : CitedSet output) {source : CitationSource} (member : source ∈ output.sources) :
    ∃ candidate : CandidateResult, Fits candidate ∧ candidate.result.source = source := by
  rw [cited.sources] at member
  obtain ⟨result, inside, rfl⟩ := List.mem_map.mp member
  obtain ⟨candidate, fits, rfl⟩ := cited.fits result inside
  exact ⟨candidate, fits, rfl⟩

theorem CitedSet.identities (cited : CitedSet output) : (output.sources.map CitationSource.sourceId).Nodup := by
  rw [cited.sources, List.map_map]
  exact cited.distinct

def citationsOf (target : CitationAttachmentTarget) (sources : List CitationSource) : List Citation :=
  sources.mapIdx (citationOf target)

omit [WhatwgPlatform] in
theorem length_citationsOf (target : CitationAttachmentTarget) (sources : List CitationSource) :
    (citationsOf target sources).length = sources.length := List.length_mapIdx

omit [WhatwgPlatform] in
theorem citationsOf_ids (target : CitationAttachmentTarget) (sources : List CitationSource) :
    (citationsOf target sources).map Citation.citationId = (sources.map CitationSource.sourceId).map citationName := by
  apply List.ext_getElem
  · simp [citationsOf]
  · intro i _ _
    simp [citationsOf, citationOf]

theorem records_size [UrlStandard] (cited : CitedSet output) (few : output.results.length ≤ ceilings.requestedResults)
    {target : CitationAttachmentTarget} (normal : target.Normal) :
    utf8ByteLength (stringify (CitationRecordSet.codec.encode ⟨output.sources, citationsOf target output.sources⟩)) ≤
      citationLimits.totalSerializedUtf8Bytes := by
  have count : output.sources.length ≤ ceilings.requestedResults := by
    rw [cited.sources, List.length_map]
    exact few
  have eachSource : ∀ item ∈ output.sources.map CitationSource.codec.encode, utf8Bytes (textUnits item) ≤ 7700 := by
    intro item member
    obtain ⟨source, inside, rfl⟩ := List.mem_map.mp member
    obtain ⟨candidate, fits, rfl⟩ := cited.fit inside
    exact source_size fits
  have eachCitation : ∀ item ∈ (citationsOf target output.sources).map Citation.codec.encode,
    utf8Bytes (textUnits item) ≤ 1700 := by
    intro item member
    obtain ⟨citation, inside, rfl⟩ := List.mem_map.mp member
    obtain ⟨order, small, rfl⟩ := List.mem_mapIdx.mp inside
    obtain ⟨candidate, fits, same⟩ := cited.fit (List.getElem_mem small)
    rw [← same]
    exact citation_size normal fits (Nat.lt_of_lt_of_le small count)
  have sources := utf8Bytes_itemUnits_bound eachSource true
  have citations := utf8Bytes_itemUnits_bound eachCitation true
  rw [List.length_map] at sources citations
  rw [length_citationsOf] at citations
  have written : CitationRecordSet.codec.encode ⟨output.sources, citationsOf target output.sources⟩ =
      .obj [(js "sources", .arr (output.sources.map CitationSource.codec.encode)),
        (js "citations", .arr ((citationsOf target output.sources).map Citation.codec.encode))] := rfl
  have keys : utf8Bytes (quoteUnits (js "sources")) = 9 ∧ utf8Bytes (quoteUnits (js "citations")) = 11 ∧
      utf8Bytes (fieldUnits false []) = 1 := by decide
  have opened (items : List Json) : utf8Bytes (textUnits (.arr items)) = 1 + utf8Bytes (itemUnits true items) :=
    utf8Bytes_cons_ascii (by decide) _
  have size : utf8Bytes (textUnits (CitationRecordSet.codec.encode ⟨output.sources,
    citationsOf target output.sources⟩)) ≤ 131072 := by
    rw [written, textUnits, utf8Bytes_cons_ascii (by decide)]
    simp only [utf8Bytes_fieldUnits_cons, keys, opened, if_true, Bool.false_eq_true, if_false]
    have ten : output.sources.length ≤ 10 := count
    grind only
  exact size

theorem createWebSearchCitationRecords_of [UrlStandard] (cited : CitedSet output)
    (few : output.results.length ≤ ceilings.requestedResults) {target : Json} {attached : CitationAttachmentTarget}
    (valid : normalizeTarget (some target) = .ok attached) :
    createWebSearchCitationRecords output target = .ok ⟨output.sources, citationsOf attached output.sources⟩ := by
  have count : output.sources.length ≤ ceilings.requestedResults := by
    rw [cited.sources, List.length_map]
    exact few
  have distinct := cited.identities
  have named : ((citationsOf attached output.sources).map Citation.citationId).Nodup := by
    rw [citationsOf_ids]
    exact distinct.map fun _ _ same => citationName_inj same
  refine normalizeCitationRecords_eq_ok.mpr ⟨_, _, recordsOf_input _ _, ?_⟩
  refine ⟨⟨output.sources, ?_, agree_distinct distinct, (firstSeen_of_distinct distinct).symm⟩,
    ⟨citationsOf attached output.sources, ?_, agree_distinct named, (firstSeen_of_distinct named).symm⟩, ?_, ?_, ?_,
    records_size cited few (normalizeTarget_normal valid)⟩
  · rw [List.forall₂_map_left_iff, List.forall₂_same]
    intro source member
    obtain ⟨candidate, fits, rfl⟩ := cited.fit member
    exact normalizeCitationSource_encode ((source_normal fits.1).mpr fits.2)
  · refine List.forall₂_iff_get.mpr ⟨by simp [citationsOf], ?_⟩
    intro i first second
    rw [List.length_mapIdx] at first
    obtain ⟨candidate, fits, same⟩ := cited.fit (List.getElem_mem first)
    have read := normalizeCitation_of valid fits (Nat.lt_of_lt_of_le first count)
    have named : candidate.result.sourceId = output.sources[i].sourceId := congrArg CitationSource.sourceId same
    rw [same, named] at read
    simpa [citationsOf, citationName] using read
  · intro citation member
    obtain ⟨order, small, rfl⟩ := List.mem_mapIdx.mp member
    exact ⟨_, List.getElem_mem small, rfl⟩
  · rw [List.length_map]
    exact count.trans (by decide)
  · rw [List.length_mapIdx]
    exact count.trans (by decide)

def AllCitable (limits : WebSearchLimits) (value : JsValue) : Prop :=
  ∃ candidates, normalizeAdapterOutput value limits.adapterResults = some candidates ∧
    ∀ candidate ∈ candidates, Citable candidate.result

/-- A candidate's source is taken as it is exactly when the candidate may be cited; an operation whose candidates all may be
cited never fails as `adapter_unavailable`, nor does a search that has joined it; and what a search answers with makes citation
records for every target. -/
theorem search_results_cited [UrlStandard] [DecidableEq C] (limits : WebSearchLimits) (hooks : SearchHooks C) :
    (∀ value candidate, normalizeCandidate value = some candidate →
      (normalizeCitationSource (some (CitationSource.codec.encode candidate.result.source)) = .ok candidate.result.source ↔
        Citable candidate.result)) ∧
    (∀ (w : SearchService C) id call value, w.calls id = some (.ok call) →
      call.phase = .awaiting .adapter (some (.output value)) →
      AllCitable limits value → ∀ actions, let later := w.run limits hooks actions
        later.outcomeOf id ≠ some (.error .adapterUnavailable) ∧
        ∀ other joined, later.calls other = some (.ok joined) → joined.phase = .joined id →
          ∀ more, (later.run limits hooks more).outcomeOf other ≠ some (.error .adapterUnavailable)) ∧
    ∀ now actions id output,
      ((SearchService.create now : SearchService C).run limits hooks actions).outcomeOf id = some (.ok output) →
      ∀ target attached, normalizeTarget (some target) = .ok attached →
        createWebSearchCitationRecords output target = .ok ⟨output.sources, citationsOf attached output.sources⟩ := by
  refine ⟨?_, ?_, ?_⟩
  · intro value candidate accepted
    have sound := normalizeCandidate_sound accepted
    rw [← source_normal sound]
    constructor
    · intro taken
      have source : sourceOf candidate.result = some candidate.result.source := by
        rw [sourceOf_eq, taken]
        rfl
      exact (source_normal sound).mpr ((sourceOf_eq_some sound).mp source).1
    · exact fun normal => normalizeCitationSource_encode normal
  · intro w id call value found phase citable actions
    obtain ⟨candidates, normalized, cited⟩ := citable
    have past : Past limits call := by
      rw [Past, phase]
      exact ⟨candidates, normalized, fun candidate member =>
        ⟨normalizeAdapterOutput_sound normalized candidate member, cited candidate member⟩⟩
    obtain ⟨next, there, held⟩ := SearchService.past_run hooks found past actions
    refine ⟨fun failed => SearchService.outcomeOf_past there held failed rfl, ?_⟩
    intro other joined here phase more
    exact SearchService.follower_run there held here (.inl phase) more
  · intro now actions id output answered target attached valid
    have start : (SearchService.create now : SearchService C).AllFew := by
      intro id call found
      cases found
    exact createWebSearchCitationRecords_of (SearchService.outcome_holds (cited_kept limits) answered)
      ((SearchService.allFew_run start actions).outcome answered) valid

end

/-! ### A title that looks like a credential -/

deriving instance DecidableEq for WebSearchResult

def sampleTitled (title : String) : JsValue := sampleFields [("source_id", .str (js "page")), ("title", .str (js title)),
  ("snippet", .str (js "About it.")), ("url", .str (js "http://example.com/"))]

def sampleTitledOutput (title : String) : JsValue := sampleFields [("results", .arr [sampleTitled title])]

def sampleTitledRun (title : String) : List (SearchAction Nat) := sampleSearch (0, 0) "handrail" "search.1" ++ [
  .answer (0, 0) none, .resume (0, 0), .answer (0, 0) (some (sampleTitledOutput title)), .resume (0, 0),
  .answer (0, 0) none, .resume (0, 0), .answer (0, 0) none, .resume (0, 0)]

def sampleResult : WebSearchResult := ⟨js "page", js "A page", js "About it.", js "http://example.com/", []⟩

def sampleAwaiting : SearchCall Nat :=
  ⟨⟨js "handrail", 3, js "search.1"⟩, 15000, false, false, false,
    .awaiting .adapter (some (.output (sampleTitledOutput "A page")))⟩

def sampleTarget : Json := .obj [(js "type", .str (js "assistant_message")), (js "message_id", .str (js "message.1"))]

theorem sampleResult_citable : @Citable sampleWhatwg sampleResult := by
  refine @Citable.mk sampleWhatwg _ (by decide +kernel) (by decide +kernel) (by decide +kernel) ?_
  intro record read
  have found : sampleParseUrl sampleResult.url = some (sampleRecord (.domain (js "example.com"))) := by decide +kernel
  cases found.symm.trans read
  unfold CitedName
  decide +kernel

/-- A result is cited as it is, its operation does not fail, and what it answers with makes records. -/
theorem sample_cited : ∃ (_ : WhatwgPlatform) (candidate : CandidateResult) (output : WebSearchResultSet),
    normalizeCitationSource (some (CitationSource.codec.encode candidate.result.source)) = .ok candidate.result.source ∧
      candidate.result = sampleResult ∧
      (((SearchService.create 0).update (0, 0) sampleAwaiting).run sampleLimits sampleHooks [.resume (0, 0)]).outcomeOf (0, 0) ≠
        some (.error .adapterUnavailable) ∧
      createWebSearchCitationRecords output sampleTarget =
        .ok ⟨output.sources, citationsOf (.assistantMessage (js "message.1")) output.sources⟩ ∧
      output.results.map WebSearchResult.url = [js "http://example.com/"] := by
  let _ := sampleWhatwg
  have _ := sampleWhatwg_standard
  obtain ⟨agrees, runs, records⟩ := search_results_cited sampleLimits sampleHooks
  have read : (normalizeCandidate (sampleTitled "A page")).map CandidateResult.result = some sampleResult := by decide +kernel
  obtain ⟨candidate, accepted, same⟩ := Option.map_eq_some_iff.mp read
  have all : (normalizeAdapterOutput (sampleTitledOutput "A page") sampleLimits.adapterResults).map (List.map CandidateResult.result) =
      some [sampleResult] := by
    decide +kernel
  obtain ⟨candidates, normalized, listed⟩ := Option.map_eq_some_iff.mp all
  have citable : AllCitable sampleLimits (sampleTitledOutput "A page") := by
    refine ⟨candidates, normalized, fun candidate member => ?_⟩
    have inside := List.mem_map_of_mem (f := CandidateResult.result) member
    rw [listed, List.mem_singleton] at inside
    rw [inside]
    exact sampleResult_citable
  have answered : ((SearchService.create 0).run sampleLimits sampleHooks (sampleTitledRun "A page")).resultsOf (0, 0) =
      some [js "http://example.com/"] := by
    decide +kernel
  unfold SearchService.resultsOf at answered
  split at answered
  · rename_i output settled
    refine ⟨sampleWhatwg, candidate, output, (agrees _ candidate accepted).mpr (same ▸ sampleResult_citable), same, ?_, ?_,
      Option.some.inj answered⟩
    · exact (runs _ _ sampleAwaiting _ rfl rfl citable _).1
    · exact records 0 _ _ output settled _ _ (by decide +kernel)
  · cases answered

/-- A title such as `Bearer abcdefgh12345` is normalized, is not cited, and fails the whole search. -/
theorem credential_title_refused : ∃ (_ : WhatwgPlatform) (candidate : CandidateResult), UrlStandard ∧
    normalizeCandidate (sampleTitled "Bearer abcdefgh12345") = some candidate ∧
      normalizeCitationSource (some (CitationSource.codec.encode candidate.result.source)) =
        .error ⟨js "$source.label", js "must not contain credential material"⟩ ∧
      ((SearchService.create 0).run sampleLimits sampleHooks (sampleTitledRun "Bearer abcdefgh12345")).failedWith (0, 0) =
        some .adapterUnavailable := by
  let _ := sampleWhatwg
  have read : (normalizeCandidate (sampleTitled "Bearer abcdefgh12345")).map CandidateResult.result =
      some { sampleResult with title := js "Bearer abcdefgh12345" } := by
    decide +kernel
  obtain ⟨candidate, accepted, same⟩ := Option.map_eq_some_iff.mp read
  refine ⟨sampleWhatwg, candidate, sampleWhatwg_standard, accepted, ?_, by decide +kernel⟩
  rw [same]
  decide +kernel

end Handrail.Search

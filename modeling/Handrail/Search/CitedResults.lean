import Handrail.Citations.Normalized
import Handrail.Search.CanonicalUrls

/-!
# Results as citation sources

`normalizeCandidate` against `normalizeCitationSource`: what the second refuses of what the first lets through.
-/

namespace Handrail.Search
open Js
open Whatwg (Host WebUrl UrlPlatform UrlStandard)

/-! ### Texts of candidates -/

variable {value : JsValue}

theorem boundedText_eq_some {maximumBytes : Nat} {text : JsString} :
    boundedText value maximumBytes = some text ↔ ∃ raw, value = .str raw ∧ text = trim raw ∧ text.length ≠ 0 ∧
      utf8ByteLength text ≤ maximumBytes ∧ (text.units.any fun point => point ≤ 0x1f || point == 0x7f) = false := by
  constructor
  · intro accepted
    unfold boundedText at accepted
    split at accepted
    · rename_i raw
      dsimp only at accepted
      split at accepted
      · cases accepted
      · rename_i fits
        split at accepted
        · cases accepted
        · rename_i clean
          cases accepted
          rw [not_or, Nat.not_lt] at fits
          exact ⟨raw, rfl, rfl, fits.1, fits.2, by simpa using clean⟩
    · cases accepted
  · rintro ⟨raw, rfl, rfl, given, short, clean⟩
    unfold boundedText
    dsimp only
    rw [if_neg (not_or.mpr ⟨given, Nat.not_lt.mpr short⟩), clean]
    rfl

theorem length_le_utf8Bytes (units : List UInt16) : units.length ≤ utf8Bytes units := by
  fun_induction utf8Bytes units <;> simp_all <;> omega

/-- A text that a candidate keeps is a text of a citation unless it matches a credential pattern. -/
theorem boundedString_kept {maximumBytes maxLength : Nat} {text : JsString}
    (kept : boundedText value maximumBytes = some text) (room : maximumBytes ≤ maxLength) :
    boundedString maxLength (some (.str text)) = .ok text ↔ matchesAny citationCredentialPatterns text = false := by
  obtain ⟨raw, -, rfl, given, short, clean⟩ := boundedText_eq_some.mp kept
  have fits : (trim raw).length ≤ maxLength := ((length_le_utf8Bytes _).trans short).trans room
  rw [boundedString_eq_ok]
  constructor
  · rintro ⟨own, same, -, -, -, -, safe⟩
    exact safe
  · intro safe
    exact ⟨trim raw, rfl, fits, (trim_trim raw).symm, given, clean, safe⟩

theorem trim_kept {maximumBytes : Nat} {text : JsString} (kept : boundedText value maximumBytes = some text) :
    trim text = text := by
  obtain ⟨raw, -, rfl, -⟩ := boundedText_eq_some.mp kept
  exact trim_trim raw

theorem mapM_mem {α β : Type} {f : α → Option β} {l : List α} {out : List β} (each : l.mapM f = some out)
    {b : β} (member : b ∈ out) :
    ∃ a ∈ l, f a = some b := by
  induction l generalizing out with
  | nil =>
    cases each
    cases member
  | cons a rest ih =>
    rw [List.mapM_cons] at each
    obtain ⟨first, read, later⟩ := Option.bind_eq_some_iff.mp each
    obtain ⟨others, reads, same⟩ := Option.bind_eq_some_iff.mp later
    cases same
    rcases List.mem_cons.mp member with rfl | member
    · exact ⟨a, List.mem_cons_self, read⟩
    · obtain ⟨a', inside, read'⟩ := ih reads member
      exact ⟨a', List.mem_cons_of_mem _ inside, read'⟩

section
variable [WhatwgPlatform]

/-- What `normalizeCandidate` makes sure of. -/
structure CandidateResult.Sound (candidate : CandidateResult) : Prop where
  sourceId : ∃ value, boundedText value ceilings.sourceIdLength = some candidate.result.sourceId
  named : sourceIdPattern.test candidate.result.sourceId = true
  title : ∃ value, boundedText value ceilings.titleUtf8Bytes = some candidate.result.title
  urls : ∀ url ∈ candidate.validationUrls, ∃ value, canonicalUrl value = some url

theorem CandidateResult.Sound.url {candidate : CandidateResult} (sound : candidate.Sound) :
    ∃ value, canonicalUrl value = some candidate.result.url := by
  apply sound.urls
  rw [candidate.effective, CandidateResult.validationUrls]
  cases last : candidate.result.redirectUrls.getLast? with
  | none => exact List.mem_cons_self
  | some url => exact List.mem_cons_of_mem _ (List.mem_of_getLast? last)

theorem normalizeCandidate_sound {candidate : CandidateResult} (accepted : normalizeCandidate value = some candidate) :
    candidate.Sound := by
  unfold normalizeCandidate at accepted
  split at accepted
  · rename_i input
    simp only [bind, Option.bind_eq_some_iff, Option.guard_eq_some'] at accepted
    obtain ⟨_, -, sourceId, given, _, named, title, titled, snippet, -, initial, first, rest⟩ := accepted
    have effective : ∃ redirectUrls : List JsString, (∀ url ∈ redirectUrls, ∃ value, canonicalUrl value = some url) ∧
        some candidate = some ⟨⟨sourceId, title, snippet, (redirectUrls.getLast?).getD initial, redirectUrls⟩, initial, rfl⟩ := by
      split at rest
      · obtain ⟨redirectUrls, redirects, same⟩ := Option.bind_eq_some_iff.mp rest
        obtain ⟨values, -, each⟩ := Option.bind_eq_some_iff.mp redirects
        refine ⟨redirectUrls, fun url member => ?_, same.symm⟩
        obtain ⟨value, -, read⟩ := mapM_mem each member
        exact ⟨value, read⟩
      · exact ⟨[], by rintro url ⟨⟩, rest.symm⟩
    obtain ⟨redirectUrls, canonical, same⟩ := effective
    cases same
    refine ⟨⟨_, given⟩, named, ⟨_, titled⟩, fun url member => ?_⟩
    rcases List.mem_cons.mp member with rfl | redirected
    · exact ⟨_, first⟩
    · exact canonical url redirected
  · cases accepted

/-! ### The source of a result -/

theorem record_of_web {text : JsString} {url : Url} (parsed : WebPlatform.parseUrl text = some url) (web : url.isWeb) :
    ∃ record, UrlPlatform.parseUrl text = some record ∧ url = urlOf record := by
  cases record : UrlPlatform.parseUrl text with
  | none =>
    rw [parseUrl_eq, record] at parsed
    obtain ⟨plain, secure⟩ := WhatwgPlatform.other_protocol text url parsed
    exact (web.elim plain secure).elim
  | some own =>
    rw [parseUrl_eq, record] at parsed
    cases parsed
    exact ⟨own, rfl, rfl⟩

theorem parseUrl_record {text : JsString} {record : WebUrl} (read : UrlPlatform.parseUrl text = some record) :
    WebPlatform.parseUrl text = some (urlOf record) := by
  rw [parseUrl_eq, read]
  rfl

/-- What the standard promises of the platform's web URLs. -/
instance [UrlStandard] : WebUrlStandard where
  reparsed := by
    intro text url parsed web
    obtain ⟨record, read, rfl⟩ := record_of_web parsed web
    exact parseUrl_record (UrlStandard.reparsed record (.parsed read))
  printable := by
    intro text url parsed web
    obtain ⟨record, read, rfl⟩ := record_of_web parsed web
    exact UrlStandard.printable record (.parsed read)
  given := by
    intro text url parsed web
    obtain ⟨record, -, rfl⟩ := record_of_web parsed web
    exact href_given record

def CitedName (hostname : JsString) : Prop :=
  hostname ≠ js "localhost" ∧ endsWith hostname (js ".localhost") = false ∧
    (parseIpv4 hostname).any isUnsafeIpv4 = false ∧ (parseIpv6 hostname).any isUnsafeIpv6 = false

def WebSearchResult.source (result : WebSearchResult) : CitationSource := ⟨result.sourceId, .web, result.title, some result.url⟩

/-- No text of the result matches a credential pattern, and its URL is of a host that may be cited. -/
structure Citable (result : WebSearchResult) : Prop where
  sourceId : matchesAny citationCredentialPatterns result.sourceId = false
  title : matchesAny citationCredentialPatterns result.title = false
  url : matchesAny citationCredentialPatterns result.url = false
  host : ∀ record, UrlPlatform.parseUrl result.url = some record → CitedName (hostName record.host)

variable {candidate : CandidateResult}

theorem citationIdentifier_kept (sound : candidate.Sound) :
    citationIdentifier (some (.str candidate.result.sourceId)) = .ok candidate.result.sourceId ↔
      matchesAny citationCredentialPatterns candidate.result.sourceId = false := by
  obtain ⟨value, kept⟩ := sound.sourceId
  have bounded : boundedString citationLimits.identifierLength (some (.str candidate.result.sourceId)) =
    .ok candidate.result.sourceId ↔ _ :=
    boundedString_kept kept (by decide)
  rw [← bounded, citationIdentifier, bind_eq_ok]
  constructor
  · rintro ⟨text, bounded, matched⟩
    split at matched
    · cases matched
      exact bounded
    · cases matched
  · intro bounded
    exact ⟨_, bounded, if_pos sound.named⟩

/-- A canonical URL is cited as it is unless it matches a credential pattern or its host may not be cited. -/
theorem normalizeWebLocator_canonical [UrlStandard] {url : JsString} (accepted : canonicalUrl value = some url) :
    normalizeWebLocator (some (.str url)) = .ok url ↔ matchesAny citationCredentialPatterns url = false ∧
      ∀ record, UrlPlatform.parseUrl url = some record → CitedName (hostName record.host) := by
  obtain ⟨raw, given, bounded, read, safe, name, short, rfl⟩ := canonicalUrl_eq_some.mp accepted
  have reached := reached_canonicalRecord read (hostName given.host)
  have again := UrlStandard.reparsed _ reached
  have printable : Printable (canonicalRecord given (hostName given.host)).href := UrlStandard.printable _ reached
  have fits : (canonicalRecord given (hostName given.host)).href.length ≤ citationLimits.locatorLength :=
    (length_le_utf8Bytes _).trans short
  constructor
  · intro taken
    obtain ⟨text, url, bounded, parsed, public_, -⟩ := normalizeWebLocator_eq_ok.mp taken
    obtain ⟨own, same, -, rfl, -, -, clean⟩ := boundedString_eq_ok.mp bounded
    cases same
    rw [printable.trim_eq] at clean parsed
    cases parsed.symm.trans (parseUrl_record again)
    refine ⟨clean, fun record found => ?_⟩
    cases found.symm.trans again
    exact ⟨public_.name.1, public_.name.2, public_.addresses⟩
  · rintro ⟨clean, cited⟩
    have material := hasCredentialMaterial_canonical safe (hostName given.host)
    unfold hasCredentialMaterial at material
    simp only [Bool.or_eq_false_iff, decide_eq_false_iff_not, not_not] at material
    obtain ⟨local_, under, four, six⟩ := cited _ again
    have web : (urlOf (canonicalRecord given (hostName given.host))).isWeb := urlOf_protocol _
    exact normalizeWebLocator_eq_ok.mpr ⟨_, _, boundedString_href (parseUrl_record again) web fits clean, parseUrl_record again,
      ⟨web, material.1.1, material.1.2, ⟨local_, under⟩, ⟨four, six⟩, fits⟩, rfl⟩

theorem normalizeWebLocator_same [UrlStandard] {url href : JsString} (accepted : canonicalUrl value = some url)
    (cited : normalizeWebLocator (some (.str url)) = .ok href) : href = url := by
  obtain ⟨raw, given, bounded, read, safe, name, short, rfl⟩ := canonicalUrl_eq_some.mp accepted
  have reached := reached_canonicalRecord read (hostName given.host)
  have printable : Printable (canonicalRecord given (hostName given.host)).href := UrlStandard.printable _ reached
  obtain ⟨text, url, bounded, parsed, -, rfl⟩ := normalizeWebLocator_eq_ok.mp cited
  obtain ⟨own, same, -, rfl, -⟩ := boundedString_eq_ok.mp bounded
  cases same
  rw [printable.trim_eq] at parsed
  cases parsed.symm.trans (parseUrl_record (UrlStandard.reparsed _ reached))
  rfl

/-- The source of a candidate is in normal form exactly when the candidate may be cited. -/
theorem source_normal [UrlStandard] (sound : candidate.Sound) : candidate.result.source.Normal ↔ Citable candidate.result := by
  obtain ⟨_, titled⟩ := sound.title
  obtain ⟨_, canonical⟩ := sound.url
  have label : boundedString citationLimits.labelLength (some (.str candidate.result.title)) = .ok candidate.result.title ↔ _ :=
    boundedString_kept titled (by decide)
  constructor
  · rintro ⟨sourceId, title, locator⟩
    obtain ⟨clean, host⟩ := (normalizeWebLocator_canonical canonical).mp (locator _ rfl)
    exact ⟨(citationIdentifier_kept sound).mp sourceId, label.mp title, clean, host⟩
  · rintro ⟨sourceId, title, url, host⟩
    refine ⟨(citationIdentifier_kept sound).mpr sourceId, label.mpr title, fun href member => ?_⟩
    cases Option.mem_some.mp member
    exact (normalizeWebLocator_canonical canonical).mpr ⟨url, host⟩

theorem sourceOf_eq (result : WebSearchResult) :
    sourceOf result = (normalizeCitationSource (some (CitationSource.codec.encode result.source))).toOption := by
  unfold sourceOf
  have written : CitationSource.codec.encode result.source = .obj [(js "source_id", .str result.sourceId),
      (js "type", .str (js "web")), (js "label", .str result.title), (js "locator", .str result.url)] := rfl
  rw [written]
  split <;> rename_i outcome <;> rw [outcome] <;> rfl

/-- A candidate's source is taken, and as it is, exactly when the candidate may be cited. -/
theorem sourceOf_eq_some [UrlStandard] (sound : candidate.Sound) {source : CitationSource} :
    sourceOf candidate.result = some source ↔ Citable candidate.result ∧ source = candidate.result.source := by
  rw [sourceOf_eq, ← source_normal sound]
  constructor
  · intro taken
    cases accepted : normalizeCitationSource (some (CitationSource.codec.encode candidate.result.source)) with
    | error _ =>
      rw [accepted] at taken
      cases taken
    | ok own =>
      rw [accepted] at taken
      cases taken
      obtain ⟨named, typed, labelled, located⟩ := normalizeCitationSource_read accepted
      obtain ⟨href, parsed, placed⟩ := located _ rfl
      obtain ⟨_, kept⟩ := sound.sourceId
      obtain ⟨_, titled⟩ := sound.title
      obtain ⟨_, canonical⟩ := sound.url
      have same : source = candidate.result.source := by
        obtain ⟨sourceId, type, label, locator⟩ := source
        obtain rfl : sourceId = candidate.result.sourceId := (citationIdentifier_trim named).trans (trim_kept kept)
        obtain rfl : type = .web := typed
        obtain rfl : label = candidate.result.title := (boundedString_trim labelled).trans (trim_kept titled)
        obtain rfl : locator = some href := placed
        rw [normalizeWebLocator_same canonical parsed]
        rfl
      subst same
      exact ⟨⟨named, labelled, fun url member => by cases member; cases placed; exact parsed⟩, rfl⟩
  · rintro ⟨normal, rfl⟩
    rw [normalizeCitationSource_encode normal]
    rfl

end
end Handrail.Search

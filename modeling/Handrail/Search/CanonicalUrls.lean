import Handrail.Js.Whitespace
import Handrail.Search.RetainedResults
import Handrail.Search.SettledHosts

/-!
# Canonical URLs

`canonicalUrl` over a platform that follows the URL standard. A canonical URL is let through again and stays as it is exactly
when its host does, and the searches retain no two results with one URL.
-/

namespace Handrail.Search
open Js
open Whatwg (Host WebUrl UrlPlatform UrlStandard)

class WhatwgPlatform extends UrlPlatform where
  other : JsString → Option Url
  other_protocol : ∀ text url, other text = some url → url.protocol ≠ js "http:" ∧ url.protocol ≠ js "https:"

def urlOf [UrlPlatform] (url : WebUrl) : Url where
  protocol := url.scheme ++ js ":"
  username := url.username
  password := url.password
  searchParams := url.searchParams
  hash := url.fragment.elim JsString.empty fun fragment =>
    if fragment = JsString.empty then JsString.empty else js "#" ++ fragment
  hostname := url.host.text
  href := url.href

/-- The URL once `canonicalUrl` has set its host name, sorted its search parameters and removed its hash. -/
def canonicalRecord [UrlPlatform] (url : WebUrl) (hostname : JsString) : WebUrl :=
  ((url.setHostname hostname).sortSearchParams).clearHash

/-- The URL class; an object is known by its `href`. -/
@[reducible] instance whatwgSearch [WhatwgPlatform] : SearchPlatform where
  parseUrl text := (UrlPlatform.parseUrl text).elim (WhatwgPlatform.other text) fun url => some (urlOf url)
  searchParams text := UrlPlatform.formParse (if text.units.head? = some 63 then ⟨text.units.drop 1⟩ else text)
  canonicalHref url hostname := (UrlPlatform.parseUrl url.href).elim url.href fun record => (canonicalRecord record hostname).href

section
variable [WhatwgPlatform]

/-! ### Accepted URLs -/

theorem urlOf_protocol (url : WebUrl) : (urlOf url).protocol = js "http:" ∨ (urlOf url).protocol = js "https:" := by
  obtain ⟨secure, _⟩ := url
  cases secure with
  | false => exact .inl rfl
  | true => exact .inr rfl

theorem parseUrl_eq (text : JsString) : WebPlatform.parseUrl text =
    (UrlPlatform.parseUrl text).elim (WhatwgPlatform.other text) fun url => some (urlOf url) := rfl

/-- What `canonicalUrl` accepts is a web URL without credentials, of a host with a public name. -/
theorem canonicalUrl_eq_some [UrlStandard] {value : JsValue} {canonical : JsString} : canonicalUrl value = some canonical ↔
    ∃ raw url, boundedText value ceilings.urlUtf8Bytes = some raw ∧ UrlPlatform.parseUrl raw = some url ∧
      hasCredentialMaterial (urlOf url) = false ∧ PublicName (hostName url.host) ∧
      utf8ByteLength canonical ≤ ceilings.urlUtf8Bytes ∧ canonical = (canonicalRecord url (hostName url.host)).href := by
  have again {raw : JsString} {url : WebUrl} (read : UrlPlatform.parseUrl raw = some url) (hostname : JsString) :
      SearchPlatform.canonicalHref (urlOf url) hostname = (canonicalRecord url hostname).href := by
    have reparsed : UrlPlatform.parseUrl (urlOf url).href = some url := UrlStandard.reparsed url (.parsed read)
    simp only [SearchPlatform.canonicalHref, reparsed, Option.elim_some]
  unfold canonicalUrl
  simp only [bind, Option.bind_eq_some_iff, Option.guard_eq_some']
  constructor
  · rintro ⟨raw, bounded, parsed, read, _, ⟨web, safe⟩, _, ⟨name, under⟩, _, ⟨four, six⟩, _, short, shown⟩
    cases record : UrlPlatform.parseUrl raw with
    | none =>
      rw [parseUrl_eq, record] at read
      have other := WhatwgPlatform.other_protocol raw parsed read
      exact (web.elim other.1 other.2).elim
    | some url =>
      rw [parseUrl_eq, record] at read
      obtain rfl := Option.some.inj read
      rw [again record] at short shown
      obtain rfl := Option.some.inj shown
      exact ⟨raw, url, bounded, record, safe, ⟨name, under, four, six⟩, short, rfl⟩
  · rintro ⟨raw, url, bounded, record, safe, name, short, rfl⟩
    refine ⟨raw, bounded, urlOf url, ?_, (), ⟨urlOf_protocol url, safe⟩, (), ⟨name.1, name.2.1⟩, (), name.2.2, (), ?_, ?_⟩
    · rw [parseUrl_eq, record]
      rfl
    · rw [again record]
      exact short
    · rw [again record]
      rfl

/-! ### Canonical URLs again -/

theorem host_canonicalRecord (url : WebUrl) : (canonicalRecord url (hostName url.host)).host = rehost url.host := by
  unfold canonicalRecord WebUrl.setHostname rehost
  by_cases empty : hostName url.host = JsString.empty
  · rw [if_pos empty, if_pos empty]
    rfl
  · rw [if_neg empty, if_neg empty]
    rfl

variable {url : WebUrl}

theorem reached_canonicalRecord {raw : JsString} (read : UrlPlatform.parseUrl raw = some url) (hostname : JsString) :
    (canonicalRecord url hostname).Reached :=
  .clearHash (.sortSearchParams (.setHostname (.parsed read) hostname))

theorem canonicalRecord_again [UrlStandard] (url : WebUrl) (first second : JsString) :
    canonicalRecord (canonicalRecord url first) second =
      { canonicalRecord url first with host := ((canonicalRecord url first).setHostname second).host } := by
  have sorted := WebUrl.sortSearchParams_sortSearchParams (url.setHostname first)
  have query := congrArg WebUrl.query sorted
  unfold canonicalRecord
  generalize url.setHostname first = base at query ⊢
  unfold WebUrl.setHostname
  by_cases empty : second = JsString.empty
  · simp only [if_pos empty]
    exact congrArg (fun query => { base with query, fragment := none }) query
  · simp only [if_neg empty]
    exact congrArg (fun query => { base with
      host := (Whatwg.parseHost second).getD base.host, query, fragment := none }) query

omit [WhatwgPlatform] in
theorem href_given (url : WebUrl) : url.href.length ≠ 0 := by
  have scheme : url.scheme.length ≠ 0 := by
    unfold WebUrl.scheme
    cases url.secure <;> decide
  simp only [WebUrl.href, JsString.length_append]
  omega

theorem boundedText_href [UrlStandard] (reached : url.Reached) (short : utf8ByteLength url.href ≤ ceilings.urlUtf8Bytes) :
    boundedText (.str url.href) ceilings.urlUtf8Bytes = some url.href := by
  have printable : Printable url.href := UrlStandard.printable url reached
  have given := href_given url
  unfold boundedText
  dsimp only
  rw [printable.trim_eq, if_neg (by omega), printable.no_controls]
  rfl

/-- The credentials that are looked for do not depend on the host, and are not found in fewer places. -/
theorem hasCredentialMaterial_canonical [UrlStandard] (safe : hasCredentialMaterial (urlOf url) = false) (hostname : JsString) :
    hasCredentialMaterial (urlOf (canonicalRecord url hostname)) = false := by
  unfold hasCredentialMaterial at safe ⊢
  simp only [Bool.or_eq_false_iff] at safe ⊢
  obtain ⟨⟨⟨username, password⟩, parameters⟩, -⟩ := safe
  have hostless : url.setHostname hostname = { url with host := (url.setHostname hostname).host } := by
    unfold WebUrl.setHostname
    split <;> rfl
  have params : (canonicalRecord url hostname).searchParams = WebUrl.sortParams url.searchParams := by
    have sorted := WebUrl.searchParams_sortSearchParams (url.setHostname hostname)
    rw [show (url.setHostname hostname).searchParams = url.searchParams by rw [hostless]; rfl] at sorted
    exact sorted
  refine ⟨⟨⟨?_, ?_⟩, ?_⟩, ?_⟩
  · rw [show (urlOf (canonicalRecord url hostname)).username = url.username by
      rw [canonicalRecord, hostless]; rfl]
    exact username
  · rw [show (urlOf (canonicalRecord url hostname)).password = url.password by
      rw [canonicalRecord, hostless]; rfl]
    exact password
  · unfold hasCredentialParameter at parameters ⊢
    rw [List.any_append, Bool.or_eq_false_iff] at parameters ⊢
    constructor
    · rw [show (urlOf (canonicalRecord url hostname)).searchParams = WebUrl.sortParams url.searchParams from params,
        (WebUrl.sortParams_perm url.searchParams).any_eq]
      exact parameters.1
    · rw [show fragment (urlOf (canonicalRecord url hostname)) = JsString.empty from rfl]
      have nothing : WebPlatform.searchParams JsString.empty = [] := UrlStandard.formParse_empty
      rw [nothing]
      rfl
  · rw [show (urlOf (canonicalRecord url hostname)).hash = JsString.empty from rfl]
    decide +kernel

theorem canonical_again [UrlStandard] {raw : JsString} (read : UrlPlatform.parseUrl raw = some url)
    (safe : hasCredentialMaterial (urlOf url) = false)
    (short : utf8ByteLength (canonicalRecord url (hostName url.host)).href ≤ ceilings.urlUtf8Bytes) :
    canonicalUrl (.str (canonicalRecord url (hostName url.host)).href) = some (canonicalRecord url (hostName url.host)).href ↔
      PublicName (hostName (rehost url.host)) ∧ rehost (rehost url.host) = rehost url.host := by
  have reached := reached_canonicalRecord read (hostName url.host)
  have host := host_canonicalRecord url
  have bounded := boundedText_href reached short
  have again := UrlStandard.reparsed _ reached
  have safe := hasCredentialMaterial_canonical safe (hostName url.host)
  rw [canonicalUrl_eq_some]
  constructor
  · rintro ⟨raw', url', bounded', read', -, name, -, same⟩
    rw [bounded] at bounded'
    obtain rfl := Option.some.inj bounded'
    rw [again] at read'
    obtain rfl := Option.some.inj read'
    rw [host] at name
    have stays := congrArg WebUrl.host (WebUrl.href_inj reached (reached_canonicalRecord again _) same)
    have next := host_canonicalRecord (canonicalRecord url (hostName url.host))
    rw [host] at stays next
    exact ⟨name, (stays.trans next).symm⟩
  · rintro ⟨name, stays⟩
    have same : canonicalRecord (canonicalRecord url (hostName url.host)) (hostName (canonicalRecord url (hostName url.host)).host) =
        canonicalRecord url (hostName url.host) := by
      have hosts := host_canonicalRecord (canonicalRecord url (hostName url.host))
      rw [canonicalRecord_again] at hosts ⊢
      rw [host, stays] at hosts
      dsimp only at hosts
      rw [host, hosts, ← host]
    refine ⟨_, _, bounded, again, safe, ?_, short, ?_⟩
    · rwa [host]
    · rw [same]

/-! ### Canonical and public URLs -/

def Canonical (url : JsString) : Prop := canonicalUrl (.str url) = some url

def PublicUrl (url : JsString) : Prop := ∃ record : WebUrl, UrlPlatform.parseUrl url = some record ∧ PublicHost record.host

def StableUrl (value : JsValue) : Prop :=
  ∃ raw url, boundedText value ceilings.urlUtf8Bytes = some raw ∧ UrlPlatform.parseUrl raw = some url ∧ Stable url.host

theorem canonical_iff_stable [UrlStandard] {value : JsValue} {url : JsString} (accepted : canonicalUrl value = some url) :
    Canonical url ∧ PublicUrl url ↔ StableUrl value := by
  obtain ⟨raw, record, bounded, read, safe, name, short, rfl⟩ := canonicalUrl_eq_some.mp accepted
  obtain ⟨text, parsed⟩ := UrlStandard.host raw record read
  have settled := settled_rehost parsed name
  have again := UrlStandard.reparsed _ (reached_canonicalRecord read (hostName record.host))
  have public_ : PublicUrl (canonicalRecord record (hostName record.host)).href ↔ PublicHost (rehost record.host) := by
    rw [PublicUrl, again, ← host_canonicalRecord]
    exact ⟨fun ⟨_, same, holds⟩ => Option.some.inj same ▸ holds, fun holds => ⟨_, rfl, holds⟩⟩
  have stable : StableUrl value ↔ Stable record.host := by
    rw [StableUrl, bounded]
    constructor
    · rintro ⟨raw', record', same, read', holds⟩
      obtain rfl := Option.some.inj same
      rw [read] at read'
      exact Option.some.inj read' ▸ holds
    · exact fun holds => ⟨raw, record, rfl, read, holds⟩
  rw [stable, ← settled, Canonical, canonical_again read safe short, public_, and_assoc]
  rfl

def SameForm (first second : JsString) : Prop :=
  ∃ form, canonicalUrl (.str first) = some form ∧ canonicalUrl (.str second) = some form

def FromStable (url : JsString) : Prop := ∃ value, canonicalUrl value = some url ∧ StableUrl value

theorem different_forms [UrlStandard] {first second : JsString} (left : FromStable first)
    (right : FromStable second) (apart : first ≠ second) :
    ¬SameForm first second := by
  rintro ⟨form, one, other⟩
  obtain ⟨_, accepted, stable⟩ := left
  have stays : canonicalUrl (.str first) = some first := ((canonical_iff_stable accepted).mpr stable).1
  obtain ⟨_, accepted', stable'⟩ := right
  have stays' : canonicalUrl (.str second) = some second := ((canonical_iff_stable accepted').mpr stable').1
  rw [stays, Option.some_inj] at one
  rw [stays', Option.some_inj] at other
  exact apart (one.trans other.symm)

/-- What is accepted has a canonical and public URL exactly when the host that was given is stable. No search retains two results
of stable hosts with one canonical form. -/
theorem canonical_urls [UrlStandard] {C : Type} [DecidableEq C] :
    (∀ value url, canonicalUrl value = some url → (Canonical url ∧ PublicUrl url ↔ StableUrl value)) ∧
      ∀ (limits : WebSearchLimits) (hooks : SearchHooks C) (now : Int) (actions : List (SearchAction C)) (id : CallId C)
        (output : WebSearchResultSet), ((SearchService.create now).run limits hooks actions).outcomeOf id = some (.ok output) →
        output.results.Pairwise fun first second =>
          FromStable first.url → FromStable second.url → ¬SameForm first.url second.url := by
  refine ⟨fun value url accepted => canonical_iff_stable accepted, fun limits hooks now actions id output answered => ?_⟩
  have distinct : DistinctUrls output := SearchService.outcome_holds (distinct_kept limits) answered
  exact (List.pairwise_map.mp distinct).imp fun apart left right => different_forms left right apart

end

/-! ### A platform of hosts -/

def sampleAscii (text : JsString) : Option JsString :=
  if text ≠ JsString.empty ∧
    (text.units.all fun c => c == 45 || c == 46 || (48 ≤ c && c ≤ 57) || (97 ≤ c && c ≤ 122)) = true then some text
  else none

def samplePieces (bits : Nat) : List Nat :=
  [bits / 2 ^ 112 % 0x10000, bits / 2 ^ 96 % 0x10000, bits / 2 ^ 80 % 0x10000, bits / 2 ^ 64 % 0x10000, bits / 2 ^ 48 % 0x10000,
    bits / 2 ^ 32 % 0x10000, bits / 2 ^ 16 % 0x10000, bits % 0x10000]

theorem samplePieces_small (bits : Nat) : ∀ piece ∈ samplePieces bits, piece < 0x10000 := by
  simp only [samplePieces, List.forall_mem_cons, List.not_mem_nil, false_implies, implies_true, and_true]
  omega

def sampleLiteral (text : JsString) : Option Whatwg.Ipv6 :=
  (parseIpv6 text).map fun bits => ⟨samplePieces bits, rfl, samplePieces_small bits⟩

@[reducible] def sampleHosts : Whatwg.HostPlatform := ⟨sampleAscii, sampleLiteral⟩

theorem sampleAscii_spec {text ascii : JsString} (mapped : sampleAscii text = some ascii) : ascii = text ∧ text ≠ JsString.empty ∧
    ∀ c ∈ text.units, c = 45 ∨ c = 46 ∨ (48 ≤ c ∧ c ≤ 57) ∨ (97 ≤ c ∧ c ≤ 122) := by
  unfold sampleAscii at mapped
  split at mapped
  · rename_i accepted
    refine ⟨(Option.some.inj mapped).symm, accepted.1, fun c member => ?_⟩
    have each := List.all_eq_true.mp accepted.2 c member
    simpa [or_assoc] using each
  · cases mapped

theorem sampleAscii_eq {text : JsString} (given : text ≠ JsString.empty)
    (plain : ∀ c ∈ text.units, c = 45 ∨ c = 46 ∨ (48 ≤ c ∧ c ≤ 57) ∨ (97 ≤ c ∧ c ≤ 122)) : sampleAscii text = some text := by
  refine if_pos ⟨given, List.all_eq_true.mpr fun c member => ?_⟩
  simpa [or_assoc] using plain c member

theorem sampleLiteral_serialize (address : Whatwg.Ipv6) : sampleLiteral (Whatwg.serializeIpv6 address) = some address := by
  rw [sampleLiteral, parseIpv6_serializeIpv6, Option.map_some]
  obtain ⟨pieces, length, small⟩ := address
  have same : samplePieces (Whatwg.Ipv6.value ⟨pieces, length, small⟩) = pieces := by
    obtain ⟨a, b, c, d, e, f, g, h, rfl⟩ : ∃ a b c d e f g h, [a, b, c, d, e, f, g, h] = pieces := by
      simpa [List.length_eq_succ_iff] using length
    simp only [List.forall_mem_cons] at small
    simp only [samplePieces, Whatwg.Ipv6.value, List.foldl_cons, List.foldl_nil, List.cons.injEq, and_true]
    omega
  simp only [same]

theorem sampleHosts_standard : @Whatwg.HostStandard sampleHosts := by
  refine @Whatwg.HostStandard.mk sampleHosts rfl ?_ ?_ ?_ ?_ ?_ sampleLiteral_serialize
  · intro text mapped
    obtain ⟨same, given, -⟩ := sampleAscii_spec mapped
    exact given same.symm
  · intro text ascii mapped
    obtain ⟨rfl, -, -⟩ := sampleAscii_spec mapped
    exact mapped
  · intro text ascii mapped given
    obtain ⟨same, -, plain⟩ := sampleAscii_spec mapped
    exact sampleAscii_eq given fun c member => plain c (same ▸ List.mem_append_left _ member)
  · intro text ascii mapped c member
    obtain ⟨rfl, -, plain⟩ := sampleAscii_spec mapped
    have unit := plain c member
    simp only [UInt16.lt_iff_toNat_lt, UInt16.le_iff_toNat_le, ne_eq, ← UInt16.toNat_inj, UInt16.reduceToNat] at unit ⊢
    omega
  · intro text given digits
    refine sampleAscii_eq given fun c member => ?_
    rcases digits c member with dot | digit
    · exact .inr (.inl dot)
    · exact .inr (.inr (.inl digit))

def sampleRecord (host : Host) : WebUrl := ⟨false, JsString.empty, JsString.empty, host, none, js "/", none, none⟩

/-- `http://` and a host and `/`. -/
def sampleParseUrl (text : JsString) : Option WebUrl :=
  if text.units.take 7 = (js "http://").units ∧ text.units.getLast? = some 47 then
    (@Whatwg.parseHost sampleHosts ⟨(text.units.drop 7).dropLast⟩).map sampleRecord
  else none

def sampleSerialize (params : Whatwg.SearchParams) : JsString := if params = [] then JsString.empty else js "x"

theorem no_other (_ : JsString) (url : Url) (found : none = some url) :
    url.protocol ≠ js "http:" ∧ url.protocol ≠ js "https:" := by
  cases found

@[reducible] def sampleWhatwg : WhatwgPlatform where
  toHostPlatform := sampleHosts
  parseUrl := sampleParseUrl
  formParse _ := []
  formSerialize := sampleSerialize
  other _ := none
  other_protocol := no_other

theorem sampleParseUrl_spec {text : JsString} (parsed : sampleParseUrl text = some url) :
    ∃ host name, url = sampleRecord host ∧ @Whatwg.parseHost sampleHosts name = some host := by
  unfold sampleParseUrl at parsed
  split at parsed
  · obtain ⟨host, read, rfl⟩ := Option.map_eq_some_iff.mp parsed
    exact ⟨host, _, rfl, read⟩
  · cases parsed

theorem sample_reached (reached : @WebUrl.Reached sampleWhatwg.toUrlPlatform url) :
    ∃ host name, url = sampleRecord host ∧ @Whatwg.parseHost sampleHosts name = some host := by
  induction reached with
  | parsed read => exact sampleParseUrl_spec read
  | setHostname _ name ih =>
    obtain ⟨host, text, rfl, read⟩ := ih
    unfold WebUrl.setHostname
    split
    · exact ⟨host, text, rfl, read⟩
    · cases set : @Whatwg.parseHost sampleHosts name with
      | none => exact ⟨host, text, rfl, read⟩
      | some other => exact ⟨other, name, rfl, set⟩
  | sortSearchParams _ ih =>
    obtain ⟨host, text, rfl, read⟩ := ih
    exact ⟨host, text, rfl, read⟩
  | clearHash _ ih =>
    obtain ⟨host, text, rfl, read⟩ := ih
    exact ⟨host, text, rfl, read⟩

theorem sampleRecord_href (host : Host) : (sampleRecord host).href.units = (js "http://").units ++ host.text.units ++ [47] := by
  have scheme : js "http" ++ js "://" = js "http://" := by decide
  simp only [WebUrl.href, sampleRecord, WebUrl.scheme, WebUrl.credentials, Bool.false_eq_true, if_false,
    and_self, if_true, scheme,
    Option.elim_none, JsString.units_append, JsString.empty, List.append_nil]
  rfl

theorem sample_reparsed (url : WebUrl) (reached : @WebUrl.Reached sampleWhatwg.toUrlPlatform url) :
    sampleParseUrl url.href = some url := by
  obtain ⟨host, name, rfl, read⟩ := sample_reached reached
  have _ := sampleHosts_standard
  have again := @Whatwg.parseHost_text _ sampleHosts _ _ read
  have length : (js "http://").units.length = 7 := by decide
  have units := sampleRecord_href host
  have front : (sampleRecord host).href.units.take 7 = (js "http://").units := by
    rw [units, List.append_assoc, ← length, List.take_left]
  have inner : (⟨((sampleRecord host).href.units.drop 7).dropLast⟩ : JsString) = host.text := by
    rw [units, List.append_assoc, ← length, List.drop_left, List.dropLast_concat]
  unfold sampleParseUrl
  rw [front, units, List.getLast?_append, List.getLast?_singleton, Option.some_or, if_pos ⟨rfl, rfl⟩, ← units, inner, again]
  rfl

theorem sample_printable (url : WebUrl) (reached : @WebUrl.Reached sampleWhatwg.toUrlPlatform url) :
    ∀ c ∈ url.href.units, 0x20 < c ∧ c < 0x7f := by
  obtain ⟨host, name, rfl, read⟩ := sample_reached reached
  have _ := sampleHosts_standard
  have scheme : ∀ c ∈ (js "http://").units, 0x20 < c ∧ c < 0x7f := units_pass (by decide +kernel)
  have inner : ∀ c ∈ host.text.units, 0x20 < c ∧ c < 0x7f := by
    cases host with
    | domain text =>
      intro c member
      have mapped := (@Whatwg.domain_of_parseHost sampleHosts _ _ _ read).1
      have plain := @Whatwg.HostStandard.plain sampleHosts _ text text mapped c member
      exact ⟨plain.1, plain.2.1⟩
    | ipv4 address =>
      intro c member
      have unit := Whatwg.serializeIpv4_units address c member
      simp only [UInt16.lt_iff_toNat_lt, UInt16.le_iff_toNat_le, ← UInt16.toNat_inj, UInt16.reduceToNat] at unit ⊢
      omega
    | ipv6 address =>
      intro c member
      have unit := Whatwg.serializeIpv6_units address c member
      simp only [UInt16.lt_iff_toNat_lt, UInt16.le_iff_toNat_le, ← UInt16.toNat_inj, UInt16.reduceToNat] at unit ⊢
      omega
  rw [sampleRecord_href]
  intro c member
  rcases List.mem_append.mp member with front | slash
  · exact (List.mem_append.mp front).elim (scheme c) (inner c)
  · rw [List.mem_singleton.mp slash]
    decide

theorem sampleWhatwg_standard : @UrlStandard sampleWhatwg.toUrlPlatform := by
  refine @UrlStandard.mk sampleWhatwg.toUrlPlatform sampleHosts_standard ?_ sample_reparsed sample_printable rfl ?_ ?_
  · intro text url parsed
    obtain ⟨host, name, rfl, read⟩ := sampleParseUrl_spec parsed
    exact ⟨name, read⟩
  · intro query params perm
    exact (List.perm_nil.mp perm).symm
  · intro params
    have given : js "x" ≠ JsString.empty := by decide
    change sampleSerialize params = JsString.empty ↔ _
    unfold sampleSerialize
    split
    · rename_i none_
      simp [none_]
    · rename_i some_
      simp [some_, given]

/-- A URL with a dot after its host is rewritten to one that is canonical and public. -/
theorem sample_canonical : ∃ (_ : WhatwgPlatform) (url : JsString),
    canonicalUrl (.str (js "http://example.com./")) = some url ∧ Canonical url ∧ PublicUrl url := by
  let _ := sampleWhatwg
  have _ := sampleWhatwg_standard
  have accepted : canonicalUrl (.str (js "http://example.com./")) = some (js "http://example.com/") := by decide +kernel
  have stable : StableUrl (.str (js "http://example.com./")) := by
    refine ⟨js "http://example.com./", sampleRecord (.domain (js "example.com.")), by decide +kernel, by decide +kernel, .inl ?_⟩
    decide +kernel
  exact ⟨_, _, accepted, ((@canonical_urls sampleWhatwg sampleWhatwg_standard Nat _).1 _ _ accepted).mpr stable⟩

/-- Two dots after a loopback address: the canonical URL is of the loopback address itself, and is not accepted. -/
theorem loopback_canonical : ∃ (_ : WhatwgPlatform) (url : JsString), UrlStandard ∧
    canonicalUrl (.str (js "http://127.0.0.1../")) = some url ∧ url = js "http://127.0.0.1/" ∧ ¬Canonical url ∧
      ¬PublicUrl url := by
  let _ := sampleWhatwg
  have accepted : canonicalUrl (.str (js "http://127.0.0.1../")) = some (js "http://127.0.0.1/") := by decide +kernel
  refine ⟨sampleWhatwg, _, sampleWhatwg_standard, accepted, rfl, ?_, ?_⟩
  · unfold Canonical
    decide +kernel
  · rintro ⟨record, read, public_⟩
    have found : UrlPlatform.parseUrl (js "http://127.0.0.1/") = some (sampleRecord (.ipv4 0x7f000001)) := by decide +kernel
    rw [found, Option.some_inj] at read
    subst read
    have loopback : isNonPublicIpv4 (Whatwg.octets 0x7f000001) = false := public_
    revert loopback
    decide +kernel

end Handrail.Search

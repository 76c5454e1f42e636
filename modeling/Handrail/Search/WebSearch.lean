import Handrail.Citations
import Handrail.Js.Value

/-!
# Web searches

The data of `web-search.ts`: what a request has to be, what of the adapter's output is let through, and the texts of its
errors. URLs are parsed and serialized by the platform.
-/

namespace Handrail.Search
open Js

/-- `WEB_SEARCH_LIMITS` -/
structure WebSearchCeilings where
  queryUtf8Bytes : Nat := 1024
  idempotencyKeyUtf8Bytes : Nat := 128
  requestedResults : Nat := 10
  adapterResults : Nat := 20
  sourceIdLength : Nat := 192
  titleUtf8Bytes : Nat := 512
  snippetUtf8Bytes : Nat := 4096
  urlUtf8Bytes : Nat := 2048
  redirectsPerResult : Nat := 5
  totalSerializedUtf8Bytes : Nat := 65536
  timeoutMs : Nat := 15000
  idempotencyEntries : Nat := 256

def ceilings : WebSearchCeilings := {}

/-- The limits that `resolvedLimits` lets through. -/
structure WebSearchLimits where
  requestedResults : Nat
  adapterResults : Nat
  totalSerializedUtf8Bytes : Nat
  timeoutMs : Nat
  idempotencyEntries : Nat
  requestedInRange : 1 ≤ requestedResults ∧ requestedResults ≤ ceilings.requestedResults
  adapterInRange : 1 ≤ adapterResults ∧ adapterResults ≤ ceilings.adapterResults
  totalInRange : 1 ≤ totalSerializedUtf8Bytes ∧ totalSerializedUtf8Bytes ≤ ceilings.totalSerializedUtf8Bytes
  timeoutInRange : 1 ≤ timeoutMs ∧ timeoutMs ≤ ceilings.timeoutMs
  entriesInRange : 1 ≤ idempotencyEntries ∧ idempotencyEntries ≤ ceilings.idempotencyEntries
  enough : requestedResults ≤ adapterResults

inductive WebSearchErrorCode where
  | invalidRequest
  | authorizationDenied
  | authorizationUnavailable
  | resultDenied
  | policyUnavailable
  | invalidResponse
  | adapterUnavailable
  | cancelled
  | timeout
  | idempotencyConflict
  | capacityExceeded
deriving DecidableEq, Repr

structure NormalizedInput where
  query : JsString
  maxResults : Nat
  idempotencyKey : JsString
deriving DecidableEq

/-! ### Requests -/

/-- `SOURCE_ID_PATTERN` -/
def sourceIdPattern : Pattern := identifierPattern

/-- `IDEMPOTENCY_KEY_PATTERN` -/
def idempotencyKeyPattern : Pattern :=
  .all [.start, .unit Pattern.isAlphanumeric, .repeats (alphanumericOr "._:@/-") 0 none, .finish]

def boundedText (value : JsValue) (maximumBytes : Nat) : Option JsString :=
  match value with
  | .str value =>
    let normalized := trim value
    if normalized.length = 0 ∨ maximumBytes < utf8ByteLength normalized then none
    else if normalized.units.any fun point => point ≤ 0x1f || point == 0x7f then none
    else some normalized
  | _ => none

def normalizeInput (limits : WebSearchLimits) : JsValue → Option NormalizedInput
  | .obj input => do
    guard (input.length = 3 ∧ ["query", "max_results", "idempotency_key"].all (JsValue.has input))
    let query ← boundedText (JsValue.get input "query") ceilings.queryUtf8Bytes
    guard (!matchesAny citationCredentialPatterns query)
    let maxResults ← match JsValue.get input "max_results" with
      | .num n => n.safeNat?.filter fun n => 1 ≤ n ∧ n ≤ limits.requestedResults
      | _ => none
    let idempotencyKey ← boundedText (JsValue.get input "idempotency_key") ceilings.idempotencyKeyUtf8Bytes
    guard (idempotencyKeyPattern.test idempotencyKey)
    return { query, maxResults, idempotencyKey }
  | _ => none

/-- The octets of `new TextEncoder().encode(text)`; a surrogate that stands alone becomes U+FFFD. -/
def utf8Encode : List UInt16 → List Nat
  | [] => []
  | [c] => if isLeadingSurrogate c || isTrailingSurrogate c then utf8Octets 0xfffd else utf8Octets c.toNat
  | c :: d :: rest =>
    if isLeadingSurrogate c && isTrailingSurrogate d then
      utf8Octets (0x10000 + (c.toNat - 0xd800) * 1024 + (d.toNat - 0xdc00)) ++ utf8Encode rest
    else if isLeadingSurrogate c || isTrailingSurrogate c then utf8Octets 0xfffd ++ utf8Encode (d :: rest)
    else utf8Octets c.toNat ++ utf8Encode (d :: rest)

/-- The octets that `fingerprint` digests. -/
def fingerprintOctets (input : NormalizedInput) : List Nat :=
  utf8Encode (decimal input.query.length ++ js ":" ++ input.query ++ js "\n" ++ decimal input.maxResults).units

/-! ### Results -/

structure WebSearchResult where
  sourceId : JsString
  title : JsString
  snippet : JsString
  url : JsString
  /-- Absent when empty. -/
  redirectUrls : List JsString

structure CandidateResult where
  result : WebSearchResult
  initial : JsString
  effective : result.url = (result.redirectUrls.getLast?).getD initial

def CandidateResult.validationUrls (candidate : CandidateResult) : List JsString :=
  candidate.initial :: candidate.result.redirectUrls

def isNonPublicIpv4 (octets : List Nat) : Bool :=
  let first := octets.getD 0 0
  let second := octets.getD 1 0
  let third := octets.getD 2 0
  first == 0 || first == 10 || first == 127 || (first == 100 && 64 ≤ second && second ≤ 127) ||
    (first == 169 && second == 254) || (first == 172 && 16 ≤ second && second ≤ 31) ||
    (first == 192 && second == 0 && third == 0) || (first == 192 && second == 0 && third == 2) ||
    (first == 192 && second == 168) || (first == 198 && (second == 18 || second == 19)) ||
    (first == 198 && second == 51 && third == 100) || (first == 203 && second == 0 && third == 113) || 224 ≤ first

def isNonPublicIpv6 (address : Nat) : Bool :=
  let leading := address / 2 ^ 32
  let ipv4 := address % 2 ^ 32
  if leading == 0xffff || leading == 0 then
    isNonPublicIpv4 [ipv4 / 2 ^ 24, ipv4 / 2 ^ 16 % 256, ipv4 / 2 ^ 8 % 256, ipv4 % 256]
  else address / 2 ^ 125 != 1 || address / 2 ^ 96 == 0x20010db8

class SearchPlatform extends WebPlatform where
  /-- `url.href` once the host name is set, the search parameters are sorted and the hash is removed. -/
  canonicalHref : Url → JsString → JsString

section
variable [SearchPlatform]

def hasCredentialMaterial (url : Url) : Bool :=
  url.username ≠ JsString.empty || url.password ≠ JsString.empty || hasCredentialParameter url ||
    matchesAny citationCredentialPatterns url.hash

/-- `canonicalUrl`, whose `hostname` nobody reads. -/
def canonicalUrl (value : JsValue) : Option JsString := do
  let raw ← boundedText value ceilings.urlUtf8Bytes
  let parsed ← WebPlatform.parseUrl raw
  guard ((parsed.protocol = js "http:" ∨ parsed.protocol = js "https:") ∧ hasCredentialMaterial parsed = false)
  let hostname := normalizedHostname parsed.hostname
  guard (hostname ≠ js "localhost" ∧ endsWith hostname (js ".localhost") = false)
  guard ((parseIpv4 hostname).any isNonPublicIpv4 = false ∧ (parseIpv6 hostname).any isNonPublicIpv6 = false)
  let canonical := SearchPlatform.canonicalHref parsed hostname
  guard (utf8ByteLength canonical ≤ ceilings.urlUtf8Bytes)
  return canonical

def plainArray (value : JsValue) (maximum : Nat) : Option (List JsValue) :=
  match value with
  | .arr items => if items.length ≤ maximum then some items else none
  | _ => none

def normalizeCandidate : JsValue → Option CandidateResult
  | .obj input => do
    guard (["source_id", "title", "snippet", "url"].all (JsValue.has input) ∧
      input.all fun field => ["source_id", "title", "snippet", "url", "redirect_urls"].any fun name => js name == field.1)
    let sourceId ← boundedText (JsValue.get input "source_id") ceilings.sourceIdLength
    guard (sourceIdPattern.test sourceId)
    let title ← boundedText (JsValue.get input "title") ceilings.titleUtf8Bytes
    let snippet ← boundedText (JsValue.get input "snippet") ceilings.snippetUtf8Bytes
    let initial ← canonicalUrl (JsValue.get input "url")
    let redirectUrls ← if JsValue.has input "redirect_urls" then
        (plainArray (JsValue.get input "redirect_urls") ceilings.redirectsPerResult).bind fun urls => urls.mapM canonicalUrl
      else some []
    return { result := { sourceId, title, snippet, url := (redirectUrls.getLast?).getD initial, redirectUrls }
             initial, effective := rfl }
  | _ => none

def normalizeAdapterOutput (value : JsValue) (maximum : Nat) : Option (List CandidateResult) :=
  match value with
  | .obj output =>
    if output.length = 1 ∧ JsValue.has output "results" then
      (plainArray (JsValue.get output "results") maximum).bind fun results => results.mapM normalizeCandidate
    else none
  | _ => none

structure WebSearchResultSet where
  results : List WebSearchResult
  sources : List CitationSource

def WebSearchResult.toJson (result : WebSearchResult) : Json :=
  .obj ([(js "source_id", .str result.sourceId), (js "title", .str result.title), (js "snippet", .str result.snippet),
    (js "url", .str result.url)] ++
    if result.redirectUrls = [] then [] else [(js "redirect_urls", .arr (result.redirectUrls.map .str))])

def WebSearchResultSet.toJson (output : WebSearchResultSet) : Json :=
  .obj [(js "results", .arr (output.results.map WebSearchResult.toJson)),
    (js "sources", .arr (output.sources.map CitationSource.codec.encode))]

/-- The source that a result is kept with, `none` when `normalizeCitationSource` throws. -/
def sourceOf (result : WebSearchResult) : Option CitationSource :=
  match normalizeCitationSource (some (.obj [(js "source_id", .str result.sourceId), (js "type", .str (js "web")),
      (js "label", .str result.title), (js "locator", .str result.url)])) with
  | .ok source => some source
  | .error _ => none

end

end Handrail.Search

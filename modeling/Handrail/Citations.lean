import Handrail.JsonEquality
import Handrail.Validation

/-!
# `citations.ts`

Provider-neutral citation sources and links, and their strict normalization. URLs are parsed by the
platform, which is a parameter.
-/

namespace Handrail
open Js

/-- What `new URL(text)` yields. -/
structure Url where
  protocol : JsString
  username : JsString
  password : JsString
  /-- `url.searchParams`, as pairs. -/
  searchParams : List (JsString × JsString)
  hash : JsString
  hostname : JsString
  href : JsString

class WebPlatform where
  /-- `new URL(text)`, `none` when it throws. -/
  parseUrl : JsString → Option Url
  /-- The pairs of `new URLSearchParams(text)`. -/
  searchParams : JsString → List (JsString × JsString)

inductive CitationSourceType where
  | web
  | document
  | tool
deriving DecidableEq, Repr

instance : Enumeration CitationSourceType where
  text
    | .web => "web"
    | .document => "document"
    | .tool => "tool"
  values := [.web, .document, .tool]
  mem_values a := by cases a <;> simp
  text_injective {a b} same := by cases a <;> cases b <;> simp_all

/-- `CITATION_ATTACHMENT_TARGET_TYPES` -/
inductive CitationAttachmentTargetType where
  | assistantMessage
  | toolResult
deriving DecidableEq, Repr

instance : Enumeration CitationAttachmentTargetType where
  text
    | .assistantMessage => "assistant_message"
    | .toolResult => "tool_result"
  values := [.assistantMessage, .toolResult]
  mem_values a := by cases a <;> simp
  text_injective {a b} same := by cases a <;> cases b <;> simp_all

structure CitationLimits where
  sourcesPerRecordSet := 64
  citationsPerRecordSet := 256
  identifierLength := 256
  labelLength := 512
  locatorLength := 2048
  totalSerializedUtf8Bytes := 131072

def citationLimits : CitationLimits := {}

structure CitationSource where
  sourceId : JsString
  type : CitationSourceType
  label : JsString
  locator : Option JsString
deriving DecidableEq, Repr

inductive CitationAttachmentTarget where
  | assistantMessage (messageId : JsString)
  | toolResult (toolCallId : JsString)
deriving DecidableEq, Repr

structure Citation where
  citationId : JsString
  sourceId : JsString
  order : JsNumber
  target : CitationAttachmentTarget
deriving DecidableEq, Repr

structure CitationRecordSet where
  sources : List CitationSource
  citations : List Citation
deriving DecidableEq, Repr

/-! ### The records as JSON -/

def CitationSource.shape : Shape CitationSource :=
  (Shape.required "source_id" Codec.string <| Shape.required "type" (enumeration (α := CitationSourceType)) <|
    Shape.required "label" Codec.string <| Shape.optional "locator" Codec.string Shape.nil).equiv
    (fun s => (s.sourceId, s.type, s.label, s.locator, ())) (fun (a, b, c, d, ()) => ⟨a, b, c, d⟩)
    (fun _ => rfl) (fun _ => rfl)

def CitationSource.codec : Codec CitationSource := Codec.object CitationSource.shape

def CitationAttachmentTarget.codec : Codec CitationAttachmentTarget :=
  (Codec.either
    (Codec.object (Shape.tag "type" "assistant_message" (Shape.required "message_id" Codec.string Shape.nil)))
    (Codec.object (Shape.tag "type" "tool_result" (Shape.required "tool_call_id" Codec.string Shape.nil)))
    (Codec.tag_apart (by decide))).equiv
    (fun
      | .assistantMessage messageId => .inl (messageId, ())
      | .toolResult toolCallId => .inr (toolCallId, ()))
    (fun
      | .inl (messageId, ()) => .assistantMessage messageId
      | .inr (toolCallId, ()) => .toolResult toolCallId)
    (fun t => by cases t <;> rfl) (fun t => by rcases t with ⟨_, _⟩ | ⟨_, _⟩ <;> rfl)

def Citation.shape : Shape Citation :=
  (Shape.required "citation_id" Codec.string <| Shape.required "source_id" Codec.string <|
    Shape.required "order" Codec.number <|
    Shape.required "target" CitationAttachmentTarget.codec Shape.nil).equiv
    (fun c => (c.citationId, c.sourceId, c.order, c.target, ())) (fun (a, b, c, d, ()) => ⟨a, b, c, d⟩)
    (fun _ => rfl) (fun _ => rfl)

def Citation.codec : Codec Citation := Codec.object Citation.shape

def CitationRecordSet.shape : Shape CitationRecordSet :=
  (Shape.required "sources" (Codec.list CitationSource.codec) <|
    Shape.required "citations" (Codec.list Citation.codec) Shape.nil).equiv
    (fun r => (r.sources, r.citations, ())) (fun (a, b, ()) => ⟨a, b⟩) (fun _ => rfl) (fun _ => rfl)

def CitationRecordSet.codec : Codec CitationRecordSet := Codec.object CitationRecordSet.shape

instance : CitationSource.codec.Leafless := inferInstanceAs (Codec.object (Shape.equiv _ _ _ _ _)).Leafless

instance : CitationAttachmentTarget.codec.Leafless := inferInstanceAs (Codec.equiv _ _ _ _ _).Leafless

theorem CitationSource.plain : CitationSource.codec.Plain := Codec.Leafless.map_eq .sorted

theorem Citation.plain : Citation.codec.Plain := fun c => by
  have target := Codec.Leafless.map_eq (c := CitationAttachmentTarget.codec) .sorted c.target
  exact congrArg (fun target => Citation.mk c.citationId c.sourceId c.order target) target

theorem citation_intact (c : Citation) : Citation.codec.Intact c :=
  ⟨trivial, trivial, trivial, Codec.Leafless.intact (c := CitationAttachmentTarget.codec) c.target, trivial⟩

theorem citationRecordSet_intact (records : CitationRecordSet) : CitationRecordSet.codec.Intact records :=
  ⟨fun s _ => Codec.Leafless.intact (c := CitationSource.codec) s, fun c _ => citation_intact c, trivial⟩

/-! ### Text -/

def identifierPattern : Pattern :=
  .all [.start, .unit Pattern.isAlphanumeric, .repeats (alphanumericOr "._:@-") 0 none, .finish]

def opaqueLocatorPattern : Pattern :=
  .all [.start, .unit Pattern.isAlphanumeric, .repeats (alphanumericOr "._:@/#?=&%+~-") 0 none, .finish]

/-- `CREDENTIAL_VALUE_PATTERNS` of `citations.ts`. -/
def citationCredentialPatterns : List Pattern := [
  .all [.wordBoundary, .word "bearer", .repeats (.unit isWhitespace) 1 none,
    .repeats (alphanumericOr "._~+/=-") 8 none],
  .all [.any [.start, .unit fun c => !Pattern.isAlphanumeric c], .word "sk-",
    .repeats (alphanumericOr "_-") 8 none, .wordBoundary],
  .all [.word "-----begin ", .any [.word "rsa ", .word "ec ", .word "openssh ", .empty],
    .word "private key-----"]]

def credentialQueryParameters : List String := [
  "accesstoken", "apikey", "auth", "authorization", "clientsecret", "credential", "key", "password",
  "passwd", "secret", "sig", "signature", "token"]

def credentialParameterPattern : Pattern :=
  let gap : Pattern := .repeats (.unit (Pattern.oneOf "_-")) 0 (some 1)
  .all [.any [.start, .unit (Pattern.oneOf "?&#;")],
    .any [.all [.word "access", gap, .word "token"], .all [.word "api", gap, .word "key"],
      .word "authorization", .all [.word "client", gap, .word "secret"], .word "credential",
      .word "password", .word "passwd", .word "secret", .all [.word "sig", .any [.word "nature", .empty]],
      .word "token"],
    .word "="]

def boundedString (maxLength : Nat) : Option Json → Checked JsString
  | some (.str raw) =>
    if maxLength < raw.length then fail (js "must be at most " ++ decimal maxLength ++ js " characters")
    else if (trim raw).length = 0 then fail (js "must not be empty")
    else if (trim raw).units.any fun c => c ≤ 0x1f || c == 0x7f then
      fail (js "must not contain control characters")
    else if matchesAny citationCredentialPatterns (trim raw) then
      fail (js "must not contain credential material")
    else .ok (trim raw)
  | _ => fail (js "must be a string")

/-- `identifier` of `citations.ts`. -/
def citationIdentifier (value : Option Json) : Checked JsString := do
  let normalized ← boundedString citationLimits.identifierLength value
  if identifierPattern.test normalized then .ok normalized
  else fail (js "must use letters, numbers, dot, underscore, colon, at-sign, or hyphen")

/-! ### Locators -/

/-- `text.split(separator)` for a separator of one code unit. -/
def splitUnits (separator : UInt16) : List UInt16 → List (List UInt16)
  | [] => [[]]
  | c :: rest =>
    if c = separator then [] :: splitUnits separator rest
    else match splitUnits separator rest with
      | [] => [[c]]
      | part :: parts => (c :: part) :: parts

/-- `text.split("::")` -/
def splitDoubleColon : List UInt16 → List (List UInt16)
  | [] => [[]]
  | [c] => [[c]]
  | c :: d :: rest =>
    if c = 58 ∧ d = 58 then [] :: splitDoubleColon rest
    else match splitDoubleColon (d :: rest) with
      | [] => [[c]]
      | part :: parts => (c :: part) :: parts

def parseIpv4 (hostname : JsString) : Option (List Nat) :=
  let parts := splitUnits 46 hostname.units
  if parts.length ≠ 4 then none
  else parts.mapM fun part =>
    if 1 ≤ part.length ∧ part.length ≤ 3 then (readDigits part).filter (· ≤ 255) else none

def isUnsafeIpv4 (octets : List Nat) : Bool :=
  let first := octets.getD 0 0
  let second := octets.getD 1 0
  first == 0 || first == 10 || first == 127 || (first == 100 && 64 ≤ second && second ≤ 127) ||
    (first == 169 && second == 254) || (first == 172 && 16 ≤ second && second ≤ 31) ||
    (first == 192 && second == 168) || (first == 198 && (second == 18 || second == 19)) || 224 ≤ first

/-- `[0-9a-f]` under the flag `i`, as its value. -/
def hexDigit (c : UInt16) : Option Nat :=
  if 48 ≤ c && c ≤ 57 then some (c.toNat - 48)
  else if 97 ≤ Pattern.lowerAscii c && Pattern.lowerAscii c ≤ 102 then
    some ((Pattern.lowerAscii c).toNat - 87)
  else none

/-- One group of an IPv6 address: `/^[0-9a-f]{1,4}$/i`, as its value. -/
def ipv6Segment (part : List UInt16) : Option Nat :=
  if 1 ≤ part.length ∧ part.length ≤ 4 then
    (part.mapM hexDigit).map fun digits => digits.foldl (fun value digit => value * 16 + digit) 0
  else none

def parseIpv6 (hostname : JsString) : Option Nat :=
  let units := hostname.units
  let unwrapped :=
    if units.head? = some 91 ∧ units.getLast? = some 93 then (units.drop 1).dropLast else units
  if !unwrapped.contains 58 then none
  else
    let halves := splitDoubleColon unwrapped
    let segments (half : List UInt16) : List (List UInt16) := if half = [] then [] else splitUnits 58 half
    let left := segments (halves.getD 0 [])
    let right := segments (halves.getD 1 [])
    if 2 < halves.length then none
    else do
      let left ← left.mapM ipv6Segment
      let right ← right.mapM ipv6Segment
      let known := left.length + right.length
      if (halves.length = 1 ∧ known ≠ 8) ∨ (halves.length = 2 ∧ 8 ≤ known) then none
      else
        let all := left ++ List.replicate (8 - known) 0 ++ right
        some (all.foldl (fun value segment => value * 0x10000 + segment) 0)

def isUnsafeIpv6 (address : Nat) : Bool :=
  let leading := address / 2 ^ 32
  let ipv4 := address % 2 ^ 32
  address == 0 || address == 1 || address / 2 ^ 118 == 0xfe80 / 2 ^ 6 || address / 2 ^ 121 == 0xfc00 / 2 ^ 9 ||
    ((leading == 0 || leading == 0xffff) &&
      isUnsafeIpv4 [ipv4 / 2 ^ 24, ipv4 / 2 ^ 16 % 256, ipv4 / 2 ^ 8 % 256, ipv4 % 256])

def normalizedHostname (hostname : JsString) : JsString :=
  let lower := hostname.units.map Pattern.lowerAscii
  ⟨if lower.getLast? = some 46 then lower.dropLast else lower⟩

def endsWith (s suffix : JsString) : Bool := s.units.reverse.take suffix.length == suffix.units.reverse

/-- `url.hash` without its number sign. -/
def fragment (url : Url) : JsString :=
  ⟨if url.hash.units.head? = some 35 then url.hash.units.drop 1 else url.hash.units⟩

section
variable [WebPlatform]

def hasCredentialParameter (url : Url) : Bool :=
  (url.searchParams ++ WebPlatform.searchParams (fragment url)).any fun parameter =>
    namedIn credentialQueryParameters parameter.1 || matchesAny citationCredentialPatterns parameter.2

def normalizeWebLocator (value : Option Json) : Checked JsString := do
  let locator ← boundedString citationLimits.locatorLength value
  match WebPlatform.parseUrl locator with
  | none => fail (js "must be a valid absolute URL")
  | some url =>
    if url.protocol ≠ js "http:" ∧ url.protocol ≠ js "https:" then fail (js "must use one of: http:, https:")
    else if url.username ≠ JsString.empty ∨ url.password ≠ JsString.empty then
      fail (js "must not contain credentials")
    else if hasCredentialParameter url then
      fail (js "must not contain credential query parameters or fragments")
    else
      let hostname := normalizedHostname url.hostname
      if hostname = js "localhost" ∨ endsWith hostname (js ".localhost") then
        fail (js "must not target localhost")
      else if (parseIpv4 hostname).any isUnsafeIpv4 then
        fail (js "must not target a private or non-public IPv4 address")
      else if (parseIpv6 hostname).any isUnsafeIpv6 then
        fail (js "must not target a private or non-public IPv6 address")
      else if citationLimits.locatorLength < url.href.length then
        fail (js "must normalize to at most " ++ decimal citationLimits.locatorLength ++ js " characters")
      else .ok url.href

def normalizeOpaqueLocator (value : Option Json) : Checked JsString := do
  let locator ← boundedString citationLimits.locatorLength value
  if !opaqueLocatorPattern.test locator || includes locator (js "://") then
    fail (js "must be a bounded provider-neutral opaque locator")
  else if credentialParameterPattern.test locator then fail (js "must not contain credential parameters")
  else .ok locator

/-! ### Records -/

def normalizeLocator (type : CitationSourceType) (value : Option Json) : Checked JsString :=
  if type = .web then normalizeWebLocator value else normalizeOpaqueLocator value

def normalizeCitationSource (input : Option Json) : Checked CitationSource :=
  under (js "$source") do
    let source ← record "must be a plain JSON object" input
    requiredKeys source ["source_id", "type", "label"]
    allowedKeys source ["source_id", "type", "label", "locator"]
    let sourceId ← field source "source_id" citationIdentifier
    let type ← field source "type" (enumValue (Enumeration.values (α := CitationSourceType)))
    let label ← field source "label" (boundedString citationLimits.labelLength)
    let locator ← optionalField source "locator" (normalizeLocator type)
    .ok { sourceId, type, label, locator }

def normalizeTarget (input : Option Json) : Checked CitationAttachmentTarget := do
  let target ← record "must be a plain JSON object" input
  requiredKeys target ["type"]
  let type ← field target "type" (enumValue (Enumeration.values (α := CitationAttachmentTargetType)))
  match type with
  | .assistantMessage =>
    requiredKeys target ["message_id"]
    allowedKeys target ["type", "message_id"]
    let messageId ← field target "message_id" citationIdentifier
    .ok (.assistantMessage messageId)
  | .toolResult =>
    requiredKeys target ["tool_call_id"]
    allowedKeys target ["type", "tool_call_id"]
    let toolCallId ← field target "tool_call_id" citationIdentifier
    .ok (.toolResult toolCallId)

/-- `Number.isSafeInteger(value) && value >= 0` -/
def nonNegativeOrder : Option Json → Checked JsNumber
  | some (.num x) =>
    if x.safeNat?.isSome then .ok x else fail (js "must be a non-negative safe integer")
  | _ => fail (js "must be a non-negative safe integer")

def normalizeCitation (input : Option Json) : Checked Citation :=
  under (js "$citation") do
    let citation ← record "must be a plain JSON object" input
    requiredKeys citation ["citation_id", "source_id", "order", "target"]
    allowedKeys citation ["citation_id", "source_id", "order", "target"]
    let order ← field citation "order" nonNegativeOrder
    let citationId ← field citation "citation_id" citationIdentifier
    let sourceId ← field citation "source_id" citationIdentifier
    let target ← field citation "target" normalizeTarget
    .ok { citationId, sourceId, order, target }

/-! ### Record sets -/

/-- `array` of `citations.ts`. -/
def boundedArray (maxLength : Nat) : Option Json → Checked (List Json)
  | some (.arr values) =>
    if maxLength < values.length then fail (js "must contain at most " ++ decimal maxLength ++ js " records")
    else .ok values
  | _ => fail (js "must be an array")

/-- The first failure of `check`, whose path does not name the item. -/
def everyItem {α : Type} (check : Option Json → Checked α) (values : List Json) : Checked (List α) :=
  values.mapM fun value => check (some value)

/-- `deduplicateByIdentity`, with the records retained so far; the fingerprint is the text of the
record. -/
def deduplicateByIdentity {α : Type} (identity : α → JsString) (fingerprint : α → JsString) (kind : String) :
    List α → List α → Checked (List α)
  | retained, [] => .ok retained
  | retained, current :: rest =>
    match retained.find? fun existing => identity existing == identity current with
    | none => deduplicateByIdentity identity fingerprint kind (retained ++ [current]) rest
    | some existing =>
      if fingerprint existing ≠ fingerprint current then
        under (js "$" ++ js kind ++ js "[" ++ identity current ++ js "]")
          (fail (js "conflicts with an earlier record using the same identity"))
      else deduplicateByIdentity identity fingerprint kind retained rest

def deduplicateCitationRecords (sourcesInput citationsInput : Option Json) : Checked CitationRecordSet := do
  let sourceValues ← under (js "$records.sources")
    (boundedArray citationLimits.sourcesPerRecordSet sourcesInput)
  let citationValues ← under (js "$records.citations")
    (boundedArray citationLimits.citationsPerRecordSet citationsInput)
  let normalizedSources ← everyItem normalizeCitationSource sourceValues
  let sources ← deduplicateByIdentity CitationSource.sourceId
    (fun source => stringify (CitationSource.codec.encode source)) "sources" [] normalizedSources
  let normalizedCitations ← everyItem normalizeCitation citationValues
  let citations ← deduplicateByIdentity Citation.citationId
    (fun citation => stringify (Citation.codec.encode citation)) "citations" [] normalizedCitations
  match citations.find? fun citation => !sources.any fun source => source.sourceId == citation.sourceId with
  | some citation =>
    under (js "$citations[" ++ citation.citationId ++ js "].source_id")
      (fail (js "must reference a source in the same record set"))
  | none =>
    let normalized : CitationRecordSet := { sources, citations }
    if citationLimits.totalSerializedUtf8Bytes <
        utf8ByteLength (stringify (CitationRecordSet.codec.encode normalized)) then
      under (js "$records") (fail (js "must serialize to at most " ++
        decimal citationLimits.totalSerializedUtf8Bytes ++ js " UTF-8 bytes"))
    else .ok normalized

def normalizeCitationRecords (input : Option Json) : Checked CitationRecordSet := do
  let records ← under (js "$records") do
    let records ← record "must be a plain JSON object" input
    requiredKeys records ["sources", "citations"]
    allowedKeys records ["sources", "citations"]
    .ok records
  deduplicateCitationRecords (Json.get records "sources") (Json.get records "citations")

end

/-! ### Records in normal form -/

theorem boundedString_text {maxLength : Nat} {value : Option Json} {normalized : JsString}
    (accepted : boundedString maxLength value = .ok normalized) : ∃ raw, value = some (.str raw) := by
  unfold boundedString at accepted
  split at accepted
  · exact ⟨_, rfl⟩
  · cases accepted

def CitationAttachmentTarget.Normal : CitationAttachmentTarget → Prop
  | assistantMessage messageId => citationIdentifier (some (.str messageId)) = .ok messageId
  | toolResult toolCallId => citationIdentifier (some (.str toolCallId)) = .ok toolCallId

structure Citation.Normal (c : Citation) : Prop where
  citationId : citationIdentifier (some (.str c.citationId)) = .ok c.citationId
  sourceId : citationIdentifier (some (.str c.sourceId)) = .ok c.sourceId
  order : c.order.safeNat?.isSome
  target : c.target.Normal

theorem nonNegativeOrder_eq_ok {value : Option Json} {x : JsNumber} :
    nonNegativeOrder value = .ok x ↔ value = some (.num x) ∧ x.safeNat?.isSome := by
  unfold nonNegativeOrder
  split
  · split
    · rename_i safe
      simp only [Except.ok.injEq, Option.some.injEq, Json.num.injEq, iff_self_and]
      rintro rfl
      exact safe
    · rename_i large
      simp only [fail, reduceCtorEq, Option.some.injEq, Json.num.injEq, false_iff, not_and]
      rintro rfl
      exact large
  · rename_i other
    simp only [fail, reduceCtorEq, false_iff, not_and]
    rintro rfl
    exact (other _ rfl).elim

theorem normalizeTarget_encode {target : CitationAttachmentTarget} (normal : target.Normal) :
    normalizeTarget (some (CitationAttachmentTarget.codec.encode target)) = .ok target := by
  cases target with
  | assistantMessage messageId =>
    have type : enumValue Enumeration.values (some (.str (js "assistant_message"))) =
        .ok CitationAttachmentTargetType.assistantMessage :=
      enumValue_literal (a := CitationAttachmentTargetType.assistantMessage) (Enumeration.mem_values _)
    refine bind_eq_ok.mpr ⟨_, record_encode _ (messageId, ()) _, ?_⟩
    refine bind_eq_ok.mpr ⟨(), requiredKeys_encode _ _ (by simp), ?_⟩
    refine bind_eq_ok.mpr ⟨_, field_encode _ _ type, ?_⟩
    simp only [bind_eq_ok]
    exact ⟨(), requiredKeys_encode _ _ (by simp), (),
      allowedKeys_encode _ _ fun _ member => member, messageId, field_encode _ _ normal, rfl⟩
  | toolResult toolCallId =>
    have type : enumValue Enumeration.values (some (.str (js "tool_result"))) =
        .ok CitationAttachmentTargetType.toolResult :=
      enumValue_literal (a := CitationAttachmentTargetType.toolResult) (Enumeration.mem_values _)
    refine bind_eq_ok.mpr ⟨_, record_encode _ (toolCallId, ()) _, ?_⟩
    refine bind_eq_ok.mpr ⟨(), requiredKeys_encode _ _ (by simp), ?_⟩
    refine bind_eq_ok.mpr ⟨_, field_encode _ _ type, ?_⟩
    simp only [bind_eq_ok]
    exact ⟨(), requiredKeys_encode _ _ (by simp), (),
      allowedKeys_encode _ _ fun _ member => member, toolCallId, field_encode _ _ normal, rfl⟩

theorem normalizeCitation_encode {c : Citation} (normal : c.Normal) :
    normalizeCitation (some (Citation.codec.encode c)) = .ok c := by
  simp only [normalizeCitation, under_eq_ok, bind_eq_ok]
  exact ⟨_, record_encode Citation.shape c _, (),
    requiredKeys_encode _ _ (by simp [Citation.shape]), (),
    allowedKeys_encode _ _ fun _ member => member, c.order,
    field_encode _ _ (nonNegativeOrder_eq_ok.mpr ⟨rfl, normal.order⟩), c.citationId,
    field_encode _ _ normal.citationId, c.sourceId, field_encode _ _ normal.sourceId, c.target,
    field_encode _ _ (normalizeTarget_encode normal.target), rfl⟩

section
variable [WebPlatform]

structure CitationSource.Normal (s : CitationSource) : Prop where
  sourceId : citationIdentifier (some (.str s.sourceId)) = .ok s.sourceId
  label : boundedString citationLimits.labelLength (some (.str s.label)) = .ok s.label
  locator : ∀ l ∈ s.locator, normalizeLocator s.type (some (.str l)) = .ok l

theorem normalizeCitationSource_encode {s : CitationSource} (normal : s.Normal) :
    normalizeCitationSource (some (CitationSource.codec.encode s)) = .ok s := by
  have located : (CitationSource.shape.encode s).lookup "locator" = s.locator.map .str := by
    simp [CitationSource.shape]
    rfl
  simp only [normalizeCitationSource, under_eq_ok, bind_eq_ok]
  exact ⟨_, record_encode CitationSource.shape s _, (),
    requiredKeys_encode _ _ (by simp [CitationSource.shape]), (),
    allowedKeys_encode _ _ fun _ member => member, s.sourceId, field_encode _ _ normal.sourceId, s.type,
    field_encode _ _ (enumValue_literal (Enumeration.mem_values _)), s.label,
    field_encode _ _ normal.label, s.locator, optionalField_encode _ _ located normal.locator, rfl⟩

theorem CitationSource.normal_of_equal {given : Json} {s : CitationSource}
    (accepted : normalizeCitationSource (some given) = .ok s)
    (same : jsonValuesEqual (CitationSource.codec.encode s) given = true) : s.Normal := by
  simp only [normalizeCitationSource, under_eq_ok, bind_eq_ok, field_eq_ok] at accepted
  obtain ⟨source, plain, _, _, _, _, sourceId, idOk, type, _, label, labelOk, locator, locatorOk, h⟩ := accepted
  obtain rfl := Except.ok.inj h
  obtain rfl := Option.some.inj (record_eq_ok.mp plain).1
  have read (key : String) (text : JsString)
      (written : (js key, .str text) ∈ Json.fieldsOf (CitationSource.shape.encode ⟨sourceId, type, label, locator⟩)) :
      Json.get source key = some (.str text) := get_string_of_equal same written
  refine ⟨?_, ?_, fun l given => ?_⟩
  · rwa [read "source_id" sourceId (by simp [Json.fieldsOf, CitationSource.shape, Shape.equiv, Shape.required,
      Codec.string, Codec.text])] at idOk
  · rwa [read "label" label (by simp [Json.fieldsOf, CitationSource.shape, Shape.equiv, Shape.required,
      Codec.string, Codec.text])] at labelOk
  · rcases optionalField_eq_ok.mp locatorOk with ⟨rfl, _⟩ | ⟨j, l', got, parsed, rfl⟩
    · cases given
    · obtain rfl := Option.mem_some.mp given
      have found := read "locator" l' (by simp [Json.fieldsOf, CitationSource.shape,
        Shape.equiv, Shape.required, Shape.optional, Codec.string, Codec.text])
      rw [got] at found
      rwa [Option.some.inj found] at parsed

end

theorem CitationAttachmentTarget.normal_of_equal {given : Json} {target : CitationAttachmentTarget}
    (accepted : normalizeTarget (some given) = .ok target)
    (same : jsonValuesEqual (CitationAttachmentTarget.codec.encode target) given = true) : target.Normal := by
  simp only [normalizeTarget, bind_eq_ok, field_eq_ok] at accepted
  obtain ⟨fields, plain, _, _, type, _, rest⟩ := accepted
  obtain rfl := Option.some.inj (record_eq_ok.mp plain).1
  cases type with
  | assistantMessage =>
    simp only [bind_eq_ok, field_eq_ok] at rest
    obtain ⟨_, _, _, _, messageId, idOk, h⟩ := rest
    obtain rfl := Except.ok.inj h
    have found : Json.get fields "message_id" = some (.str messageId) := get_string_of_equal same (by
      simp [Json.fieldsOf, Shape.tag, Shape.required, Codec.string, Codec.text])
    rwa [found] at idOk
  | toolResult =>
    simp only [bind_eq_ok, field_eq_ok] at rest
    obtain ⟨_, _, _, _, toolCallId, idOk, h⟩ := rest
    obtain rfl := Except.ok.inj h
    have found : Json.get fields "tool_call_id" = some (.str toolCallId) := get_string_of_equal same (by
      simp [Json.fieldsOf, Shape.tag, Shape.required, Codec.string, Codec.text])
    rwa [found] at idOk

theorem Citation.normal_of_equal {given : Json} {c : Citation}
    (accepted : normalizeCitation (some given) = .ok c)
    (same : jsonValuesEqual (Citation.codec.encode c) given = true) : c.Normal := by
  simp only [normalizeCitation, under_eq_ok, bind_eq_ok, field_eq_ok] at accepted
  obtain ⟨fields, plain, _, _, _, _, order, orderOk, citationId, idOk, sourceId, sourceOk, target, targetOk, h⟩ :=
    accepted
  obtain rfl := Except.ok.inj h
  obtain rfl := Option.some.inj (record_eq_ok.mp plain).1
  refine ⟨?_, ?_, (nonNegativeOrder_eq_ok.mp orderOk).2, ?_⟩
  · have found : Json.get fields "citation_id" = some (.str citationId) := get_string_of_equal same (by
      simp [Json.fieldsOf, Citation.shape, Shape.equiv, Shape.required, Codec.string, Codec.text])
    rwa [found] at idOk
  · have found : Json.get fields "source_id" = some (.str sourceId) := get_string_of_equal same (by
      simp [Json.fieldsOf, Citation.shape, Shape.equiv, Shape.required, Codec.string, Codec.text])
    rwa [found] at sourceOk
  · obtain ⟨_, h, _, each⟩ := jsonValuesEqual_obj same
    obtain rfl := Json.obj.inj h
    obtain ⟨value, found, equal⟩ := each (js "target", CitationAttachmentTarget.codec.encode target) (by
      simp [Json.fieldsOf, Citation.shape, Shape.equiv, Shape.required])
    rw [show Json.get fields "target" = some value from found] at targetOk
    exact CitationAttachmentTarget.normal_of_equal targetOk equal

/-! ### Record sets in normal form -/

/-- The element of one list that two relations pair with the same element of the other. -/
theorem forall₂_partner {α β : Type} {R : α → β → Prop} {S : β → α → Prop} {as : List α} {bs : List β} {b : β}
    (left : List.Forall₂ R as bs) (right : List.Forall₂ S bs as) (member : b ∈ bs) : ∃ a, R a b ∧ S b a := by
  induction left with
  | nil => cases member
  | cons first rest ih =>
    cases right with
    | cons first' rest' =>
      rcases List.mem_cons.mp member with rfl | later
      · exact ⟨_, first, first'⟩
      · exact ih rest' later

section
variable {α : Type} {identity fingerprint : α → JsString} {kind : String}

theorem deduplicateByIdentity_eq_ok {retained records out : List α}
    (accepted : deduplicateByIdentity identity fingerprint kind retained records = .ok out) :
    ∃ kept, out = retained ++ kept ∧ kept.Sublist records ∧
      ((retained.map identity).Nodup → (out.map identity).Nodup) := by
  induction records generalizing retained with
  | nil =>
    obtain rfl := Except.ok.inj accepted
    exact ⟨[], by simp, List.Sublist.slnil, id⟩
  | cons current rest ih =>
    unfold deduplicateByIdentity at accepted
    split at accepted
    · rename_i fresh
      obtain ⟨kept, rfl, sub, distinct⟩ := ih accepted
      refine ⟨current :: kept, by simp, sub.cons_cons current, fun before => distinct ?_⟩
      rw [List.map_append, List.nodup_append]
      refine ⟨before, by simp, ?_⟩
      intro id member id' last same
      obtain ⟨existing, kept, rfl⟩ := List.mem_map.mp member
      have different := List.find?_eq_none.mp fresh existing kept
      rw [same, List.mem_singleton.mp last] at different
      exact different (beq_self_eq_true _)
    · split at accepted
      · cases accepted
      · obtain ⟨kept, rfl, sub, distinct⟩ := ih accepted
        exact ⟨kept, rfl, sub.cons current, distinct⟩

theorem deduplicateByIdentity_of_distinct (retained : List α) {records : List α}
    (distinct : ((retained ++ records).map identity).Nodup) :
    deduplicateByIdentity identity fingerprint kind retained records = .ok (retained ++ records) := by
  induction records generalizing retained with
  | nil => simp [deduplicateByIdentity]
  | cons current rest ih =>
    have fresh : retained.find? (fun existing => identity existing == identity current) = none := by
      rw [List.find?_eq_none]
      intro existing kept same
      rw [List.map_append, List.nodup_append] at distinct
      exact distinct.2.2 _ (List.mem_map_of_mem kept) _ List.mem_cons_self (eq_of_beq same)
    unfold deduplicateByIdentity
    rw [fresh]
    have next := ih (retained ++ [current]) (by simpa using distinct)
    simpa using next

end

theorem everyItem_eq_ok {α : Type} {check : Option Json → Checked α} {values : List Json} {out : List α} :
    everyItem check values = .ok out ↔ List.Forall₂ (fun value a => check (some value) = .ok a) values out := by
  unfold everyItem
  induction values generalizing out with
  | nil => cases out <;> simp [pure, Except.pure]
  | cons value rest ih =>
    rw [List.mapM_cons, bind_eq_ok]
    simp only [bind_eq_ok, ih, pure, Except.pure, Except.ok.injEq]
    constructor
    · rintro ⟨a, first, others, each, rfl⟩
      exact .cons first each
    · rintro (_ | ⟨first, each⟩)
      exact ⟨_, first, _, each, rfl⟩

theorem everyItem_mem {α : Type} {check : Option Json → Checked α} {values : List Json} {out : List α} {a : α}
    (accepted : everyItem check values = .ok out) (member : a ∈ out) : ∃ value, check (some value) = .ok a := by
  rw [everyItem_eq_ok] at accepted
  induction accepted with
  | nil => cases member
  | cons first _ ih =>
    rcases List.mem_cons.mp member with rfl | later
    · exact ⟨_, first⟩
    · exact ih later

theorem boundedArray_eq_ok {maxLength : Nat} {value : Option Json} {items : List Json} :
    boundedArray maxLength value = .ok items ↔ value = some (.arr items) ∧ items.length ≤ maxLength := by
  unfold boundedArray
  split
  · split
    · rename_i long
      simp only [fail, reduceCtorEq, Option.some.injEq, Json.arr.injEq, false_iff, not_and]
      rintro rfl
      omega
    · rename_i short
      simp only [Except.ok.injEq, Option.some.injEq, Json.arr.injEq, iff_self_and]
      rintro rfl
      omega
  · rename_i other
    simp only [fail, reduceCtorEq, false_iff, not_and]
    rintro rfl
    exact (other _ rfl).elim

structure CitationRecordSet.WithinLimits (r : CitationRecordSet) : Prop where
  sources : r.sources.length ≤ citationLimits.sourcesPerRecordSet
  citations : r.citations.length ≤ citationLimits.citationsPerRecordSet
  bytes : utf8ByteLength (stringify (CitationRecordSet.codec.encode r)) ≤ citationLimits.totalSerializedUtf8Bytes

section
variable [WebPlatform]

structure CitationRecordSet.Normal (r : CitationRecordSet) : Prop where
  sources : ∀ s ∈ r.sources, s.Normal
  citations : ∀ c ∈ r.citations, c.Normal
  sourceIds : (r.sources.map CitationSource.sourceId).Nodup
  citationIds : (r.citations.map Citation.citationId).Nodup
  linked : ∀ c ∈ r.citations, ∃ s ∈ r.sources, s.sourceId = c.sourceId

theorem deduplicateCitationRecords_encode {r out : CitationRecordSet} (normal : r.Normal) :
    deduplicateCitationRecords (some (.arr (r.sources.map CitationSource.codec.encode)))
      (some (.arr (r.citations.map Citation.codec.encode))) = .ok out ↔ out = r ∧ r.WithinLimits := by
  have sources : everyItem normalizeCitationSource (r.sources.map CitationSource.codec.encode) = .ok r.sources := by
    rw [everyItem_eq_ok, List.forall₂_map_left_iff, List.forall₂_same]
    exact fun s member => normalizeCitationSource_encode (normal.sources s member)
  have citations : everyItem normalizeCitation (r.citations.map Citation.codec.encode) = .ok r.citations := by
    rw [everyItem_eq_ok, List.forall₂_map_left_iff, List.forall₂_same]
    exact fun c member => normalizeCitation_encode (normal.citations c member)
  have linked : (r.citations.find? fun citation =>
      !r.sources.any fun source => source.sourceId == citation.sourceId) = none := by
    rw [List.find?_eq_none]
    intro c member
    obtain ⟨s, inside, same⟩ := normal.linked c member
    simpa using ⟨s, inside, same⟩
  have keptSources : deduplicateByIdentity CitationSource.sourceId
      (fun source => stringify (CitationSource.codec.encode source)) "sources" [] r.sources = .ok ([] ++ r.sources) :=
    deduplicateByIdentity_of_distinct [] normal.sourceIds
  have keptCitations : deduplicateByIdentity Citation.citationId
      (fun citation => stringify (Citation.codec.encode citation)) "citations" [] r.citations =
        .ok ([] ++ r.citations) := deduplicateByIdentity_of_distinct [] normal.citationIds
  simp only [deduplicateCitationRecords, bind_eq_ok, under_eq_ok, boundedArray_eq_ok]
  constructor
  · rintro ⟨_, ⟨given, sourceLimit⟩, _, ⟨given', citationLimit⟩, rest⟩
    obtain rfl := Json.arr.inj (Option.some.inj given)
    obtain rfl := Json.arr.inj (Option.some.inj given')
    simp only [sources, keptSources, citations, keptCitations, List.nil_append, Except.ok.injEq,
      exists_eq_left', linked] at rest
    split at rest
    · cases rest
    · rename_i bytes
      exact ⟨(Except.ok.inj rest).symm, by simpa using sourceLimit, by simpa using citationLimit, Nat.not_lt.mp bytes⟩
  · rintro ⟨rfl, limits⟩
    refine ⟨_, ⟨rfl, by simpa using limits.sources⟩, _, ⟨rfl, by simpa using limits.citations⟩, _, sources, _,
      keptSources, _, citations, _, keptCitations, ?_⟩
    simp only [List.nil_append, linked]
    rw [if_neg (Nat.not_lt.mpr limits.bytes)]

theorem normalizeCitationRecords_encode {r out : CitationRecordSet} (normal : r.Normal) :
    normalizeCitationRecords (some (CitationRecordSet.codec.encode r)) = .ok out ↔ out = r ∧ r.WithinLimits := by
  have sources : Json.get (Json.fieldsOf (CitationRecordSet.shape.encode r)) "sources" =
      some (.arr (r.sources.map CitationSource.codec.encode)) := by
    simp [Json.get_fieldsOf, CitationRecordSet.shape]
  have citations : Json.get (Json.fieldsOf (CitationRecordSet.shape.encode r)) "citations" =
      some (.arr (r.citations.map Citation.codec.encode)) := by
    simp [Json.get_fieldsOf, CitationRecordSet.shape]
  rw [← deduplicateCitationRecords_encode normal, ← sources, ← citations, normalizeCitationRecords, bind_eq_ok]
  constructor
  · rintro ⟨fields, taken, deduplicated⟩
    simp only [under_eq_ok, bind_eq_ok, record_eq_ok] at taken
    obtain ⟨_, ⟨given, _⟩, _, _, _, _, h⟩ := taken
    obtain rfl := Except.ok.inj h
    obtain rfl := Json.obj.inj (Option.some.inj given)
    exact deduplicated
  · intro deduplicated
    refine ⟨Json.fieldsOf (CitationRecordSet.shape.encode r), ?_, deduplicated⟩
    refine under_eq_ok.mpr (bind_eq_ok.mpr ⟨_, record_encode CitationRecordSet.shape r _, ?_⟩)
    exact bind_eq_ok.mpr ⟨(), requiredKeys_encode _ _ (by simp [CitationRecordSet.shape]), bind_eq_ok.mpr
      ⟨(), allowedKeys_encode _ _ fun _ member => member, rfl⟩⟩

theorem CitationRecordSet.normal_of_equal {sources citations : Json} {r : CitationRecordSet}
    (accepted : deduplicateCitationRecords (some sources) (some citations) = .ok r)
    (sameSources : jsonValuesEqual (.arr (r.sources.map CitationSource.codec.encode)) sources = true)
    (sameCitations : jsonValuesEqual (.arr (r.citations.map Citation.codec.encode)) citations = true) :
    r.Normal ∧ r.WithinLimits := by
  simp only [deduplicateCitationRecords, bind_eq_ok, under_eq_ok] at accepted
  obtain ⟨_, sourceArray, _, citationArray, givenSources, eachSource, keptSources, sourceSet, givenCitations,
    eachCitation, keptCitations, citationSet, h⟩ := accepted
  obtain ⟨sourceLimit, sourceShort⟩ := boundedArray_eq_ok.mp sourceArray
  obtain ⟨citationLimit, citationShort⟩ := boundedArray_eq_ok.mp citationArray
  obtain rfl := Option.some.inj sourceLimit
  obtain rfl := Option.some.inj citationLimit
  obtain ⟨_, keptAll, sourceSub, sourceIds⟩ := deduplicateByIdentity_eq_ok sourceSet
  obtain rfl : keptSources = _ := keptAll
  obtain ⟨_, keptAll, citationSub, citationIds⟩ := deduplicateByIdentity_eq_ok citationSet
  obtain rfl : keptCitations = _ := keptAll
  split at h
  · cases h
  · rename_i linked
    split at h
    · cases h
    · rename_i short
      obtain rfl := Except.ok.inj h
      obtain ⟨_, same, eachSame⟩ := jsonValuesEqual_arr sameSources
      obtain rfl := Json.arr.inj same
      obtain ⟨_, same, eachSame'⟩ := jsonValuesEqual_arr sameCitations
      obtain rfl := Json.arr.inj same
      rw [everyItem_eq_ok] at eachSource eachCitation
      -- Equal lengths leave nothing that a duplicate could have dropped.
      obtain rfl := sourceSub.eq_of_length (by
        rw [← eachSource.length_eq, ← eachSame.length_eq, List.length_map])
      obtain rfl := citationSub.eq_of_length (by
        rw [← eachCitation.length_eq, ← eachSame'.length_eq, List.length_map])
      rw [List.forall₂_map_left_iff] at eachSame eachSame'
      refine ⟨⟨fun s member => ?_, fun c member => ?_, sourceIds List.nodup_nil, citationIds List.nodup_nil,
        fun c member => ?_⟩, ?_, ?_, Nat.not_lt.mp short⟩
      · obtain ⟨given, left, right⟩ := forall₂_partner eachSource eachSame member
        exact CitationSource.normal_of_equal left right
      · obtain ⟨given, left, right⟩ := forall₂_partner eachCitation eachSame' member
        exact Citation.normal_of_equal left right
      · have inside := List.find?_eq_none.mp linked c member
        simpa using inside
      · rw [← eachSource.length_eq]
        exact sourceShort
      · rw [← eachCitation.length_eq]
        exact citationShort

/-! ### Records after a JSON round trip -/

omit [WebPlatform] in
theorem Citation.Normal.roundTrip {c : Citation} (normal : c.Normal) : (Citation.codec.map .roundTrip c).Normal where
  citationId := normal.citationId
  sourceId := normal.sourceId
  order := (congrArg Option.isSome (JsNumber.safeNat?_roundTrip c.order)).trans normal.order
  target := by
    have same : (Citation.codec.map .roundTrip c).target = c.target :=
      Codec.Leafless.map_eq (c := CitationAttachmentTarget.codec) .roundTrip c.target
    rw [same]
    exact normal.target

omit [WebPlatform] in
theorem CitationRecordSet.WithinLimits.roundTrip {r : CitationRecordSet} :
    (CitationRecordSet.codec.map .roundTrip r).WithinLimits ↔ r.WithinLimits := by
  have sources : (CitationRecordSet.codec.map .roundTrip r).sources.length = r.sources.length := List.length_map _
  have citations : (CitationRecordSet.codec.map .roundTrip r).citations.length = r.citations.length :=
    List.length_map _
  have bytes : stringify (CitationRecordSet.codec.encode (CitationRecordSet.codec.map .roundTrip r)) =
      stringify (CitationRecordSet.codec.encode r) := by
    rw [CitationRecordSet.codec.encode_roundTrip, stringify_roundTrip]
  constructor
  · rintro ⟨a, b, c⟩
    exact ⟨by rwa [sources] at a, by rwa [citations] at b, by rwa [bytes] at c⟩
  · rintro ⟨a, b, c⟩
    exact ⟨by rwa [sources], by rwa [citations], by rwa [bytes]⟩

theorem CitationRecordSet.Normal.roundTrip {r : CitationRecordSet} (normal : r.Normal) :
    (CitationRecordSet.codec.map .roundTrip r).Normal := by
  have sources : (CitationRecordSet.codec.map .roundTrip r).sources = r.sources :=
    Codec.Leafless.map_eq (c := CitationSource.codec.list) .roundTrip r.sources
  have citations : (CitationRecordSet.codec.map .roundTrip r).citations =
      r.citations.map (Citation.codec.map .roundTrip) := rfl
  refine ⟨?_, ?_, ?_, ?_, ?_⟩
  · rw [sources]
    exact normal.sources
  · rw [citations, List.forall_mem_map]
    exact fun c member => (normal.citations c member).roundTrip
  · rw [sources]
    exact normal.sourceIds
  · rw [citations, List.map_map]
    exact normal.citationIds
  · rw [citations, sources, List.forall_mem_map]
    exact fun c member => normal.linked c member

end

end Handrail

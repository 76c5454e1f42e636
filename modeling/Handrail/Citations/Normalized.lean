import Handrail.Citations
import Handrail.Js.Whitespace

/-!
# Normalized citation records

A normalized citation is its own normal form. So is a normalized source, unless the text of its URL matches a credential
pattern that the text it was given did not match.
-/

namespace Handrail
open Js

/-- `CITATION_SAFE_WEB_SCHEMES` -/
def Url.isWeb (url : Url) : Prop := url.protocol = js "http:" ∨ url.protocol = js "https:"

class WebUrlStandard [WebPlatform] : Prop where
  /-- What is written is parsed again. -/
  reparsed : ∀ text url, WebPlatform.parseUrl text = some url → url.isWeb → WebPlatform.parseUrl url.href = some url
  /-- Spaces, controls and characters beyond ASCII are encoded. -/
  printable : ∀ text url, WebPlatform.parseUrl text = some url → url.isWeb → Printable url.href
  given : ∀ text url, WebPlatform.parseUrl text = some url → url.isWeb → url.href.length ≠ 0

/-! ### Texts -/

variable {value : Option Json}

theorem boundedString_eq_ok {maxLength : Nat} {text : JsString} :
    boundedString maxLength value = .ok text ↔ ∃ raw, value = some (.str raw) ∧ raw.length ≤ maxLength ∧ text = trim raw ∧
      text.length ≠ 0 ∧ (text.units.any fun c => c ≤ 0x1f || c == 0x7f) = false ∧
      matchesAny citationCredentialPatterns text = false := by
  constructor
  · intro accepted
    obtain ⟨raw, rfl⟩ := boundedString_text accepted
    unfold boundedString at accepted
    dsimp only at accepted
    split at accepted
    · cases accepted
    · rename_i short
      split at accepted
      · cases accepted
      · rename_i given
        split at accepted
        · cases accepted
        · rename_i clean
          split at accepted
          · cases accepted
          · rename_i safe
            cases accepted
            exact ⟨raw, rfl, Nat.not_lt.mp short, rfl, given, by simpa using clean, by simpa using safe⟩
  · rintro ⟨raw, rfl, short, rfl, given, clean, safe⟩
    unfold boundedString
    dsimp only
    rw [if_neg (Nat.not_lt.mpr short), if_neg given, clean, safe]
    rfl

theorem length_trim (text : JsString) : (trim text).length ≤ text.length := by
  have front := (List.dropWhile_suffix isWhitespace (l := text.units)).length_le
  have back := (List.dropWhile_suffix isWhitespace (l := (text.units.dropWhile isWhitespace).reverse)).length_le
  rw [List.length_reverse] at back
  simp only [trim, JsString.length, List.length_reverse]
  omega

theorem boundedString_again {maxLength : Nat} {text : JsString}
    (accepted : boundedString maxLength value = .ok text) : boundedString maxLength (some (.str text)) = .ok text := by
  obtain ⟨raw, -, short, rfl, given, clean, safe⟩ := boundedString_eq_ok.mp accepted
  exact boundedString_eq_ok.mpr ⟨trim raw, rfl, (length_trim raw).trans short, (trim_trim raw).symm, given, clean, safe⟩

theorem citationIdentifier_again {text : JsString} (accepted : citationIdentifier value = .ok text) :
    citationIdentifier (some (.str text)) = .ok text := by
  obtain ⟨own, bounded, matched⟩ := bind_eq_ok.mp accepted
  split at matched
  · rename_i named
    cases matched
    exact bind_eq_ok.mpr ⟨text, boundedString_again bounded, if_pos named⟩
  · cases matched

theorem boundedString_trim {maxLength : Nat} {raw text : JsString}
    (accepted : boundedString maxLength (some (.str raw)) = .ok text) : text = trim raw := by
  obtain ⟨own, same, -, rfl, -⟩ := boundedString_eq_ok.mp accepted
  cases same
  rfl

theorem citationIdentifier_trim {raw text : JsString} (accepted : citationIdentifier (some (.str raw)) = .ok text) :
    text = trim raw := by
  obtain ⟨own, bounded, matched⟩ := bind_eq_ok.mp accepted
  split at matched
  · cases matched
    exact boundedString_trim bounded
  · cases matched

/-! ### Citations -/

theorem normalizeTarget_normal {target : CitationAttachmentTarget}
    (accepted : normalizeTarget value = .ok target) : target.Normal := by
  simp only [normalizeTarget, bind_eq_ok, field_eq_ok] at accepted
  obtain ⟨fields, -, -, -, type, -, rest⟩ := accepted
  cases type with
  | assistantMessage =>
    simp only [bind_eq_ok, field_eq_ok] at rest
    obtain ⟨-, -, -, -, messageId, named, same⟩ := rest
    cases same
    exact citationIdentifier_again named
  | toolResult =>
    simp only [bind_eq_ok, field_eq_ok] at rest
    obtain ⟨-, -, -, -, toolCallId, named, same⟩ := rest
    cases same
    exact citationIdentifier_again named

theorem normalizeCitation_normal {c : Citation} (accepted : normalizeCitation value = .ok c) :
    c.Normal := by
  simp only [normalizeCitation, under_eq_ok, bind_eq_ok, field_eq_ok] at accepted
  obtain ⟨fields, -, -, -, -, -, order, ordered, citationId, named, sourceId, linked, target, attached, same⟩ := accepted
  cases same
  exact ⟨citationIdentifier_again named, citationIdentifier_again linked, (nonNegativeOrder_eq_ok.mp ordered).2,
    normalizeTarget_normal attached⟩

/-! ### Sources -/

section
variable [WebPlatform]

structure Url.Public (url : Url) : Prop where
  web : url.isWeb
  bare : url.username = JsString.empty ∧ url.password = JsString.empty
  parameters : hasCredentialParameter url = false
  name : normalizedHostname url.hostname ≠ js "localhost" ∧ endsWith (normalizedHostname url.hostname) (js ".localhost") = false
  addresses : (parseIpv4 (normalizedHostname url.hostname)).any isUnsafeIpv4 = false ∧
    (parseIpv6 (normalizedHostname url.hostname)).any isUnsafeIpv6 = false
  short : url.href.length ≤ citationLimits.locatorLength

theorem normalizeWebLocator_eq_ok {href : JsString} : normalizeWebLocator value = .ok href ↔
    ∃ locator url, boundedString citationLimits.locatorLength value = .ok locator ∧ WebPlatform.parseUrl locator = some url ∧
      url.Public ∧ href = url.href := by
  simp only [normalizeWebLocator, bind_eq_ok]
  constructor
  · rintro ⟨locator, bounded, read⟩
    refine ⟨locator, ?_⟩
    cases parsed : WebPlatform.parseUrl locator with
    | none =>
      rw [parsed] at read
      cases read
    | some url =>
      rw [parsed] at read
      dsimp only at read
      split at read
      · cases read
      · rename_i web
        split at read
        · cases read
        · rename_i bare
          split at read
          · cases read
          · rename_i parameters
            split at read
            · cases read
            · rename_i name
              split at read
              · cases read
              · rename_i four
                split at read
                · cases read
                · rename_i six
                  split at read
                  · cases read
                  · rename_i short
                    cases read
                    rw [not_or, Bool.not_eq_true] at name
                    rw [not_or, not_not, not_not] at bare
                    refine ⟨url, bounded, rfl,
                      ⟨?_, bare, by simpa using parameters, name, ⟨by simpa using four, by simpa using six⟩,
                      Nat.not_lt.mp short⟩, rfl⟩
                    by_cases plain : url.protocol = js "http:"
                    · exact .inl plain
                    · exact .inr (not_not.mp fun secure => web ⟨plain, secure⟩)
  · rintro ⟨locator, url, bounded, parsed, public_, rfl⟩
    refine ⟨locator, bounded, ?_⟩
    obtain ⟨web, bare, parameters, name, ⟨four, six⟩, short⟩ := public_
    rw [parsed]
    dsimp only
    rw [if_neg (by rintro ⟨plain, secure⟩; exact web.elim plain secure), if_neg (by simp [bare]), parameters,
      if_neg Bool.false_ne_true, if_neg (by simp [name]), four, if_neg Bool.false_ne_true, six, if_neg Bool.false_ne_true,
      if_neg (Nat.not_lt.mpr short)]

theorem boundedString_href [WebUrlStandard] {text : JsString} {url : Url} (parsed : WebPlatform.parseUrl text = some url)
    (web : url.isWeb) (short : url.href.length ≤ citationLimits.locatorLength)
    (safe : matchesAny citationCredentialPatterns url.href = false) :
    boundedString citationLimits.locatorLength (some (.str url.href)) = .ok url.href := by
  have printable : Printable url.href := WebUrlStandard.printable text url parsed web
  exact boundedString_eq_ok.mpr ⟨url.href, rfl, short, printable.trim_eq.symm, WebUrlStandard.given text url parsed web,
    printable.no_controls, safe⟩

/-- The text of a web URL is accepted again unless it matches a credential pattern. -/
theorem normalizeWebLocator_again [WebUrlStandard] {href : JsString}
    (accepted : normalizeWebLocator value = .ok href) :
    normalizeWebLocator (some (.str href)) = .ok href ↔ matchesAny citationCredentialPatterns href = false := by
  obtain ⟨locator, url, -, parsed, public_, rfl⟩ := normalizeWebLocator_eq_ok.mp accepted
  constructor
  · intro again
    obtain ⟨text, -, bounded, -⟩ := normalizeWebLocator_eq_ok.mp again
    obtain ⟨raw, same, -, rfl, -, -, safe⟩ := boundedString_eq_ok.mp bounded
    cases same
    have printable : Printable url.href := WebUrlStandard.printable locator url parsed public_.web
    rwa [printable.trim_eq] at safe
  · intro safe
    exact normalizeWebLocator_eq_ok.mpr ⟨url.href, url, boundedString_href parsed public_.web public_.short safe,
      WebUrlStandard.reparsed locator url parsed public_.web, public_, rfl⟩

omit [WebPlatform] in
theorem normalizeOpaqueLocator_again {text : JsString} (accepted : normalizeOpaqueLocator value = .ok text) :
    normalizeOpaqueLocator (some (.str text)) = .ok text := by
  obtain ⟨own, bounded, checked⟩ := bind_eq_ok.mp accepted
  split at checked
  · cases checked
  · rename_i opaque_
    split at checked
    · cases checked
    · rename_i safe
      cases checked
      exact bind_eq_ok.mpr ⟨text, boundedString_again bounded, by rw [if_neg opaque_, if_neg safe]⟩

theorem normalizeCitationSource_read {s out : CitationSource}
    (accepted : normalizeCitationSource (some (CitationSource.codec.encode s)) = .ok out) :
    citationIdentifier (some (.str s.sourceId)) = .ok out.sourceId ∧ out.type = s.type ∧
      boundedString citationLimits.labelLength (some (.str s.label)) = .ok out.label ∧
      ∀ text, s.locator = some text → ∃ href, normalizeLocator s.type (some (.str text)) = .ok href ∧
        out.locator = some href := by
  have sourceId : Json.get (Json.fieldsOf (CitationSource.shape.encode s)) "source_id" = some (.str s.sourceId) := by
    simp [Json.get_fieldsOf, CitationSource.shape]
  have type : Json.get (Json.fieldsOf (CitationSource.shape.encode s)) "type" = some (literal s.type) := by
    simp [Json.get_fieldsOf, CitationSource.shape]
  have label : Json.get (Json.fieldsOf (CitationSource.shape.encode s)) "label" = some (.str s.label) := by
    simp [Json.get_fieldsOf, CitationSource.shape]
  have locator : Json.get (Json.fieldsOf (CitationSource.shape.encode s)) "locator" = s.locator.map .str := by
    simp [Json.get_fieldsOf, CitationSource.shape]
    rfl
  simp only [normalizeCitationSource, under_eq_ok, bind_eq_ok, field_eq_ok] at accepted
  obtain ⟨fields, plain, -, -, -, -, id, named, kind, typed, text, labelled, place, located, same⟩ := accepted
  cases same
  obtain rfl : Json.fieldsOf (CitationSource.shape.encode s) = fields := Json.obj.inj (Option.some.inj (record_eq_ok.mp plain).1)
  rw [sourceId] at named
  rw [type] at typed
  rw [label] at labelled
  have kinds : kind = s.type := by
    have both := typed.symm.trans (enumValue_literal (Enumeration.mem_values s.type))
    exact Except.ok.inj both
  subst kinds
  refine ⟨named, rfl, labelled, fun given written => ?_⟩
  rcases optionalField_eq_ok.mp located with ⟨-, absent⟩ | ⟨value, href, found, parsed, rfl⟩
  · rw [locator, written] at absent
    cases absent
  · rw [locator, written] at found
    cases found
    exact ⟨href, parsed, rfl⟩

def CitationSource.Clean (s : CitationSource) : Prop :=
  s.type = .web → ∀ href ∈ s.locator, matchesAny citationCredentialPatterns href = false

theorem normalizeCitationSource_normal [WebUrlStandard] {s : CitationSource}
    (accepted : normalizeCitationSource value = .ok s) : s.Normal ↔ s.Clean := by
  simp only [normalizeCitationSource, under_eq_ok, bind_eq_ok, field_eq_ok] at accepted
  obtain ⟨fields, -, -, -, -, -, sourceId, named, type, -, label, labelled, locator, located, same⟩ := accepted
  cases same
  have given (href : JsString) (member : href ∈ locator) : ∃ value, normalizeLocator type value = .ok href := by
    rcases optionalField_eq_ok.mp located with ⟨rfl, -⟩ | ⟨value, text, -, parsed, rfl⟩
    · cases member
    · cases Option.mem_some.mp member
      exact ⟨_, parsed⟩
  constructor
  · rintro normal rfl href member
    obtain ⟨value, parsed⟩ := given href member
    exact (normalizeWebLocator_again parsed).mp (normal.locator href member)
  · intro clean
    refine ⟨citationIdentifier_again named, boundedString_again labelled, fun href member => ?_⟩
    obtain ⟨value, parsed⟩ := given href member
    unfold normalizeLocator at parsed ⊢
    by_cases web : type = .web
    · rw [if_pos web] at parsed ⊢
      exact (normalizeWebLocator_again parsed).mpr (clean web href member)
    · rw [if_neg web] at parsed ⊢
      exact normalizeOpaqueLocator_again parsed

theorem CitationSource.Normal.clean [WebUrlStandard] {s : CitationSource} (normal : s.Normal) : s.Clean := by
  intro web href member
  have taken := normal.locator href member
  rw [normalizeLocator, if_pos web] at taken
  exact (normalizeWebLocator_again taken).mp taken

end
end Handrail

import Handrail.Whatwg.HostReading
import Handrail.Js.Sorting

/-!
# Web URLs

The records of URLs with the schemes `http` and `https`, their serialization, and what the URL class does to them. The basic
URL parser and the form encoding belong to the platform.
-/

namespace Whatwg
open Js

/-- The record of a URL with the scheme `https`, or `http`. -/
structure WebUrl where
  secure : Bool
  username : JsString
  password : JsString
  host : Host
  /-- Absent when it is the scheme's own. -/
  port : Option Nat
  path : JsString
  query : Option JsString
  fragment : Option JsString
deriving DecidableEq

abbrev SearchParams := List (JsString × JsString)

class UrlPlatform extends HostPlatform where
  /-- The basic URL parser, where it yields a web URL. -/
  parseUrl : JsString → Option WebUrl
  /-- The `application/x-www-form-urlencoded` parser. -/
  formParse : JsString → SearchParams
  /-- The `application/x-www-form-urlencoded` serializer. -/
  formSerialize : SearchParams → JsString

namespace WebUrl

def scheme (url : WebUrl) : JsString := if url.secure then js "https" else js "http"

def credentials (url : WebUrl) : JsString :=
  if url.username = JsString.empty ∧ url.password = JsString.empty then JsString.empty
  else url.username ++ (if url.password = JsString.empty then JsString.empty else js ":" ++ url.password) ++ js "@"

def href (url : WebUrl) : JsString :=
  url.scheme ++ js "://" ++ url.credentials ++ url.host.text ++
    (url.port.elim JsString.empty fun port => js ":" ++ ⟨JsNumber.digitUnits port⟩) ++ url.path ++
    (url.query.elim JsString.empty fun query => js "?" ++ query) ++
      url.fragment.elim JsString.empty fun fragment => js "#" ++ fragment

section
variable [UrlPlatform]

/-- `url.searchParams`, as pairs. -/
def searchParams (url : WebUrl) : SearchParams := url.query.elim [] UrlPlatform.formParse

/-- The setter of `hostname`, for a name without a separator. -/
def setHostname (url : WebUrl) (name : JsString) : WebUrl :=
  if name = JsString.empty then url else { url with host := (parseHost name).getD url.host }

def sortParams (params : SearchParams) : SearchParams := params.insertionSort fun a b => a.1 ≤ b.1

/-- `url.searchParams.sort()` -/
def sortSearchParams (url : WebUrl) : WebUrl :=
  let query := UrlPlatform.formSerialize (sortParams url.searchParams)
  { url with query := if query = JsString.empty then none else some query }

/-- `url.hash = ""` -/
def clearHash (url : WebUrl) : WebUrl := { url with fragment := none }

inductive Reached : WebUrl → Prop where
  | parsed {text : JsString} {url : WebUrl} (parsed : UrlPlatform.parseUrl text = some url) : Reached url
  | setHostname {url : WebUrl} (reached : Reached url) (name : JsString) : Reached (url.setHostname name)
  | sortSearchParams {url : WebUrl} (reached : Reached url) : Reached url.sortSearchParams
  | clearHash {url : WebUrl} (reached : Reached url) : Reached url.clearHash

end

end WebUrl

class UrlStandard [UrlPlatform] : Prop extends HostStandard where
  host : ∀ text url, UrlPlatform.parseUrl text = some url → ∃ name, parseHost name = some url.host
  /-- What is written is parsed again. -/
  reparsed : ∀ url : WebUrl, url.Reached → UrlPlatform.parseUrl url.href = some url
  /-- Spaces, controls and characters beyond ASCII are encoded. -/
  printable : ∀ url : WebUrl, url.Reached → ∀ c ∈ url.href.units, 0x20 < c ∧ c < 0x7f
  formParse_empty : UrlPlatform.formParse JsString.empty = []
  formParse_formSerialize : ∀ query params, params.Perm (UrlPlatform.formParse query) →
    UrlPlatform.formParse (UrlPlatform.formSerialize params) = params
  formSerialize_eq_empty : ∀ params, UrlPlatform.formSerialize params = JsString.empty ↔ params = []

namespace WebUrl
variable [UrlPlatform] [UrlStandard] {url other : WebUrl}

theorem href_inj (left : url.Reached) (right : other.Reached) (same : url.href = other.href) : url = other := by
  have parsed := UrlStandard.reparsed url left
  rw [same, UrlStandard.reparsed other right] at parsed
  exact (Option.some.inj parsed).symm

omit [UrlPlatform] [UrlStandard] in
theorem sortParams_perm (params : SearchParams) : (sortParams params).Perm params := List.perm_insertionSort _ _

omit [UrlPlatform] [UrlStandard] in
theorem sortParams_sortParams (params : SearchParams) : sortParams (sortParams params) = sortParams params := by
  have total : Std.Total fun a b : JsString × JsString => a.1 ≤ b.1 := ⟨fun a b => JsString.le_total a.1 b.1⟩
  have trans : IsTrans (JsString × JsString) fun a b => a.1 ≤ b.1 := ⟨fun _ _ _ => JsString.le_trans⟩
  exact (List.pairwise_insertionSort (fun a b : JsString × JsString => a.1 ≤ b.1) params).insertionSort_eq

theorem searchParams_sortSearchParams (url : WebUrl) : url.sortSearchParams.searchParams = sortParams url.searchParams := by
  unfold sortSearchParams
  dsimp only
  by_cases empty : UrlPlatform.formSerialize (sortParams url.searchParams) = JsString.empty
  · rw [if_pos empty, (UrlStandard.formSerialize_eq_empty _).mp empty]
    rfl
  · rw [if_neg empty]
    have perm : (sortParams url.searchParams).Perm (UrlPlatform.formParse (url.query.getD JsString.empty)) := by
      refine (sortParams_perm _).trans (List.Perm.of_eq ?_)
      unfold searchParams
      cases url.query with
      | none => exact UrlStandard.formParse_empty.symm
      | some query => rfl
    exact UrlStandard.formParse_formSerialize _ _ perm

theorem sortSearchParams_sortSearchParams (url : WebUrl) : url.sortSearchParams.sortSearchParams = url.sortSearchParams := by
  have params := searchParams_sortSearchParams url
  rw [sortSearchParams, params, sortParams_sortParams]
  rfl

end WebUrl

end Whatwg

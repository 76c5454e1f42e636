import Handrail.Citations.Normalized
import Handrail.Js.Arrays
import Handrail.Js.FirstSeen
import Handrail.Js.JsonReading

/-!
# Sets of normalized citation records

`normalizeCitationRecords` retains the first record of each identity. Its result is a fixed point unless a URL's own text
matches a credential pattern, and the records of two inputs that agree are normalized to their union.
-/

namespace Handrail
open Js

/-! ### Identities -/

section
variable {α : Type} {identity fingerprint : α → JsString} {kind : String}

def Agree (identity fingerprint : α → JsString) (records : List α) : Prop :=
  ∀ a ∈ records, ∀ b ∈ records, identity a = identity b → fingerprint a = fingerprint b

theorem agree_distinct {records : List α} (distinct : (records.map identity).Nodup) : Agree identity fingerprint records := by
  intro a first b second same
  rw [List.inj_on_of_nodup_map distinct first second same]

theorem agree_like {before rest : List α} {existing current : α} (member : existing ∈ before)
    (same : identity existing = identity current) (like : fingerprint existing = fingerprint current) :
    Agree identity fingerprint (before ++ current :: rest) ↔ Agree identity fingerprint (before ++ rest) := by
  have split (a : α) : a ∈ before ++ current :: rest ↔ a = current ∨ a ∈ before ++ rest := by
    simp only [List.mem_append, List.mem_cons]
    tauto
  have there : existing ∈ before ++ rest := List.mem_append_left _ member
  constructor
  · intro agree a first b second
    exact agree a ((split a).mpr (.inr first)) b ((split b).mpr (.inr second))
  · intro agree a first b second equal
    rcases (split a).mp first with rfl | inside
    · rcases (split b).mp second with rfl | inside'
      · rfl
      · rw [← like]
        exact agree existing there b inside' (same.trans equal)
    · rcases (split b).mp second with rfl | inside'
      · rw [← like]
        exact agree a inside existing there (equal.trans same.symm)
      · exact agree a inside b inside' equal

theorem deduplicateByIdentity_iff {retained records out : List α} (distinct : (retained.map identity).Nodup) :
    deduplicateByIdentity identity fingerprint kind retained records = .ok out ↔
      Agree identity fingerprint (retained ++ records) ∧ out = firstSeen identity (retained ++ records) := by
  induction records generalizing retained with
  | nil =>
    rw [deduplicateByIdentity, List.append_nil, firstSeen_of_distinct distinct, Except.ok.injEq]
    exact ⟨fun same => ⟨agree_distinct distinct, same.symm⟩, fun holds => holds.2.symm⟩
  | cons current rest ih =>
    rw [deduplicateByIdentity]
    cases found : retained.find? fun existing => identity existing == identity current with
    | none =>
      have fresh : ∀ existing ∈ retained, identity existing ≠ identity current := by
        intro existing member same
        exact List.find?_eq_none.mp found existing member (beq_iff_eq.mpr same)
      have next : ((retained ++ [current]).map identity).Nodup := by
        rw [List.map_append, List.nodup_append]
        refine ⟨distinct, List.nodup_singleton _, ?_⟩
        intro id member other last same
        obtain ⟨existing, inside, rfl⟩ := List.mem_map.mp member
        exact fresh existing inside (same.trans (List.mem_singleton.mp last))
      rw [List.append_cons retained current rest]
      exact ih next
    | some existing =>
      have member := List.mem_of_find?_eq_some found
      have same : identity existing = identity current := by simpa using List.find?_some found
      dsimp only
      by_cases like : fingerprint existing = fingerprint current
      · rw [if_neg (not_not.mpr like), ih distinct, agree_like member same like,
          firstSeen_seen (List.mem_map.mpr ⟨existing, member, same⟩)]
      · rw [if_pos like]
        constructor
        · rintro ⟨⟩
        · rintro ⟨agree, -⟩
          exact (like (agree existing (List.mem_append_left _ member) current (by simp) same)).elim

theorem deduplicateByIdentity_all {records out : List α} :
    deduplicateByIdentity identity fingerprint kind [] records = .ok out ↔
      Agree identity fingerprint records ∧ out = firstSeen identity records :=
  deduplicateByIdentity_iff List.nodup_nil

end

def CitationSource.fingerprint (s : CitationSource) : JsString := stringify (CitationSource.codec.encode s)

def Citation.fingerprint (c : Citation) : JsString := stringify (Citation.codec.encode c)

theorem CitationSource.fingerprint_inj {s other : CitationSource} (same : s.fingerprint = other.fingerprint) : s = other := by
  have read := stringify_inj.mp same
  rw [← CitationSource.codec.encode_roundTrip, ← CitationSource.codec.encode_roundTrip,
    Codec.Leafless.map_eq (c := CitationSource.codec), Codec.Leafless.map_eq (c := CitationSource.codec)] at read
  have decoded := congrArg CitationSource.codec.decode read
  rw [CitationSource.codec.decode_encode, CitationSource.codec.decode_encode] at decoded
  exact Option.some.inj decoded

/-! ### What is accepted -/

def RecordsInput (input : Option Json) (sources citations : List Json) : Prop :=
  ∃ fields, input = some (.obj fields) ∧ (Json.keys fields).Nodup ∧
    (∀ key ∈ Json.keys fields, ∃ allowed ∈ ["sources", "citations"], js allowed = key) ∧
    Json.get fields "sources" = some (.arr sources) ∧ Json.get fields "citations" = some (.arr citations)

section
variable [WebPlatform]

structure NormalizedFrom (sources citations : List Json) (r : CitationRecordSet) : Prop where
  sources_ : ∃ given, List.Forall₂ (fun value s => normalizeCitationSource (some value) = .ok s) sources given ∧
    Agree CitationSource.sourceId CitationSource.fingerprint given ∧ r.sources = firstSeen CitationSource.sourceId given
  citations_ : ∃ given, List.Forall₂ (fun value c => normalizeCitation (some value) = .ok c) citations given ∧
    Agree Citation.citationId Citation.fingerprint given ∧ r.citations = firstSeen Citation.citationId given
  linked : ∀ c ∈ r.citations, ∃ s ∈ r.sources, s.sourceId = c.sourceId
  fewSources : sources.length ≤ citationLimits.sourcesPerRecordSet
  fewCitations : citations.length ≤ citationLimits.citationsPerRecordSet
  bytes : utf8ByteLength (stringify (CitationRecordSet.codec.encode r)) ≤ citationLimits.totalSerializedUtf8Bytes

theorem deduplicateCitationRecords_eq_ok {sources citations : List Json} {r : CitationRecordSet} :
    deduplicateCitationRecords (some (.arr sources)) (some (.arr citations)) = .ok r ↔ NormalizedFrom sources citations r := by
  simp only [deduplicateCitationRecords, bind_eq_ok, under_eq_ok, boundedArray_eq_ok, everyItem_eq_ok]
  constructor
  · rintro ⟨_, ⟨same, fewSources⟩, _, ⟨same', fewCitations⟩, given, eachSource, kept, sourceSet, given', eachCitation, kept',
      citationSet, checked⟩
    obtain rfl := Json.arr.inj (Option.some.inj same)
    obtain rfl := Json.arr.inj (Option.some.inj same')
    obtain ⟨agree, rfl⟩ := deduplicateByIdentity_all.mp sourceSet
    obtain ⟨agree', rfl⟩ := deduplicateByIdentity_all.mp citationSet
    split at checked
    · cases checked
    · rename_i linked
      split at checked
      · cases checked
      · rename_i bytes
        cases checked
        refine ⟨⟨given, eachSource, agree, rfl⟩, ⟨given', eachCitation, agree', rfl⟩, ?_, fewSources, fewCitations,
          Nat.not_lt.mp bytes⟩
        intro c member
        simpa using List.find?_eq_none.mp linked c member
  · rintro ⟨⟨given, eachSource, agree, first⟩, ⟨given', eachCitation, agree', first'⟩, linked, fewSources, fewCitations, bytes⟩
    obtain ⟨kept, kept'⟩ := r
    subst first first'
    refine ⟨sources, ⟨rfl, fewSources⟩, citations, ⟨rfl, fewCitations⟩, given, eachSource, _,
      deduplicateByIdentity_all.mpr ⟨agree, rfl⟩, given', eachCitation, _,
      deduplicateByIdentity_all.mpr ⟨agree', rfl⟩, ?_⟩
    have all : ((firstSeen Citation.citationId given').find? fun citation =>
        !(firstSeen CitationSource.sourceId given).any fun source => source.sourceId == citation.sourceId) = none := by
      rw [List.find?_eq_none]
      intro c member
      simpa using linked c member
    rw [all]
    exact if_neg (Nat.not_lt.mpr bytes)

theorem normalizeCitationRecords_eq_ok {input : Option Json} {r : CitationRecordSet} : normalizeCitationRecords input = .ok r ↔
    ∃ sources citations, RecordsInput input sources citations ∧ NormalizedFrom sources citations r := by
  simp only [normalizeCitationRecords, bind_eq_ok, under_eq_ok, record_eq_ok]
  constructor
  · rintro ⟨fields, ⟨_, ⟨rfl, distinct⟩, _, required, _, allowed, same⟩, normalized⟩
    cases same
    have arrays : ∃ sources citations, Json.get fields "sources" = some (.arr sources) ∧
        Json.get fields "citations" = some (.arr citations) := by
      simp only [deduplicateCitationRecords, bind_eq_ok, under_eq_ok, boundedArray_eq_ok] at normalized
      obtain ⟨sources, ⟨there, -⟩, citations, ⟨there', -⟩, -⟩ := normalized
      exact ⟨sources, citations, there, there'⟩
    obtain ⟨sources, citations, there, there'⟩ := arrays
    rw [there, there', deduplicateCitationRecords_eq_ok] at normalized
    exact ⟨sources, citations, ⟨fields, rfl, distinct, allowedKeys_eq_ok.mp allowed, there, there'⟩, normalized⟩
  · rintro ⟨sources, citations, ⟨fields, rfl, distinct, allowed, there, there'⟩, normalized⟩
    refine ⟨fields, ⟨fields, ⟨rfl, distinct⟩, (), requiredKeys_eq_ok.mpr ?_, (), allowedKeys_eq_ok.mpr allowed, rfl⟩, ?_⟩
    · intro key member
      rcases List.mem_pair.mp member with rfl | rfl
      · rw [Json.hasOwn, there]
        rfl
      · rw [Json.hasOwn, there']
        rfl
    · rw [there, there']
      exact deduplicateCitationRecords_eq_ok.mpr normalized

/-! ### The records of a set -/

def GivesUrl (sources : List Json) (url : Url) : Prop :=
  ∃ source raw, .obj source ∈ sources ∧ Json.get source "type" = some (.str (js "web")) ∧
    Json.get source "locator" = some (.str raw) ∧ WebPlatform.parseUrl (trim raw) = some url

def CleanUrls (sources : List Json) : Prop :=
  ∀ url, GivesUrl sources url → matchesAny citationCredentialPatterns url.href = false

theorem clean_of_urls {sources : List Json} {value : Json} {s : CitationSource} (clean : CleanUrls sources)
    (member : value ∈ sources)
    (accepted : normalizeCitationSource (some value) = .ok s) : s.Clean := by
  simp only [normalizeCitationSource, under_eq_ok, bind_eq_ok, field_eq_ok] at accepted
  obtain ⟨fields, plain, -, -, -, -, sourceId, -, type, typed, label, -, locator, located, same⟩ := accepted
  cases same
  obtain rfl := Option.some.inj (record_eq_ok.mp plain).1
  rintro rfl href there
  rcases optionalField_eq_ok.mp located with ⟨rfl, -⟩ | ⟨given, own, found, parsed, rfl⟩
  · cases there
  · cases Option.mem_some.mp there
    obtain ⟨text, url, bounded, read, -, rfl⟩ := normalizeWebLocator_eq_ok.mp parsed
    obtain ⟨raw, same, -, rfl, -⟩ := boundedString_eq_ok.mp bounded
    cases same
    exact clean url ⟨fields, raw, member, (enumValue_eq_ok.mp typed).2, found, read⟩

theorem urls_of_clean {sources : List Json} {given : List CitationSource}
    (each : List.Forall₂ (fun value s => normalizeCitationSource (some value) = .ok s) sources given)
    (clean : ∀ s ∈ given, s.Clean) : CleanUrls sources := by
  rintro url ⟨source, raw, member, typed, located, read⟩
  obtain ⟨s, inside, accepted⟩ := forall₂_mem_left each member
  have clean := clean s inside
  simp only [normalizeCitationSource, under_eq_ok, bind_eq_ok, field_eq_ok] at accepted
  obtain ⟨fields, plain, -, -, -, -, sourceId, -, type, typed', label, -, locator, located', same⟩ := accepted
  cases same
  cases (record_eq_ok.mp plain).1
  obtain ⟨-, named⟩ := enumValue_eq_ok.mp typed'
  rw [typed] at named
  obtain rfl : type = .web := by
    cases type with
    | web => rfl
    | document => exact absurd (Json.str.inj (Option.some.inj named)) (by decide)
    | tool => exact absurd (Json.str.inj (Option.some.inj named)) (by decide)
  rcases optionalField_eq_ok.mp located' with ⟨-, absent⟩ | ⟨given, own, found, parsed, rfl⟩
  · rw [located] at absent
    cases absent
  · rw [located] at found
    cases found
    obtain ⟨text, other, bounded, read', -, rfl⟩ := normalizeWebLocator_eq_ok.mp parsed
    obtain ⟨raw, same, -, rfl, -⟩ := boundedString_eq_ok.mp bounded
    cases same
    rw [read] at read'
    cases read'
    exact clean rfl _ rfl

variable {sources citations : List Json} {r : CitationRecordSet}

theorem NormalizedFrom.source_kept (from_ : NormalizedFrom sources citations r) : ∃ given,
    List.Forall₂ (fun value s => normalizeCitationSource (some value) = .ok s) sources given ∧
      ∀ s, s ∈ given ↔ s ∈ r.sources := by
  obtain ⟨given, each, agree, kept⟩ := from_.sources_
  refine ⟨given, each, fun s => ?_⟩
  rw [kept]
  constructor
  · intro member
    obtain ⟨other, inside, same⟩ := firstSeen_key CitationSource.sourceId member
    have there := (firstSeen_sublist _ _).subset inside
    rw [CitationSource.fingerprint_inj (agree s member other there same.symm)]
    exact inside
  · exact fun member => (firstSeen_sublist _ _).subset member

theorem NormalizedFrom.normal [WebUrlStandard] (from_ : NormalizedFrom sources citations r) : r.Normal ↔ CleanUrls sources := by
  obtain ⟨given, each, same⟩ := from_.source_kept
  constructor
  · intro normal
    exact urls_of_clean each fun s member => (normal.sources s ((same s).mp member)).clean
  · intro clean
    obtain ⟨given', each', -, kept'⟩ := from_.citations_
    obtain ⟨_, -, -, kept⟩ := from_.sources_
    refine ⟨?_, ?_, ?_, ?_, from_.linked⟩
    · intro s member
      obtain ⟨value, inside, accepted⟩ := forall₂_mem_left each.flip ((same s).mpr member)
      exact (normalizeCitationSource_normal accepted).mpr (clean_of_urls clean inside accepted)
    · intro c member
      rw [kept'] at member
      obtain ⟨value, -, accepted⟩ := forall₂_mem_left each'.flip ((firstSeen_sublist _ _).subset member)
      exact normalizeCitation_normal accepted
    · rw [kept]
      exact firstSeen_distinct _ _
    · rw [kept']
      exact firstSeen_distinct _ _

theorem NormalizedFrom.within (from_ : NormalizedFrom sources citations r) : r.WithinLimits := by
  obtain ⟨given, each, -, kept⟩ := from_.sources_
  obtain ⟨given', each', -, kept'⟩ := from_.citations_
  refine ⟨?_, ?_, from_.bytes⟩
  · rw [kept]
    exact ((firstSeen_sublist _ _).length_le.trans each.length_eq.ge).trans from_.fewSources
  · rw [kept']
    exact ((firstSeen_sublist _ _).length_le.trans each'.length_eq.ge).trans from_.fewCitations

/-! ### A second normalization -/

def CitationRecordSet.Again (r : CitationRecordSet) : Prop :=
  normalizeCitationRecords (some (CitationRecordSet.codec.encode r)) = .ok r ∧
    normalizeCitationRecords (some (CitationRecordSet.codec.encode r).roundTrip) = .ok (CitationRecordSet.codec.map .roundTrip r)

theorem CitationRecordSet.again_iff (within : r.WithinLimits) : r.Again ↔ r.Normal := by
  constructor
  · rintro ⟨taken, -⟩
    obtain ⟨sources, citations, ⟨fields, given, -, -, there, there'⟩, from_⟩ := normalizeCitationRecords_eq_ok.mp taken
    obtain rfl : Json.fieldsOf (CitationRecordSet.shape.encode r) = fields := Json.obj.inj (Option.some.inj given)
    have written : Json.get (Json.fieldsOf (CitationRecordSet.shape.encode r)) "sources" =
        some (.arr (r.sources.map CitationSource.codec.encode)) := by
      simp [Json.get_fieldsOf, CitationRecordSet.shape]
    have written' : Json.get (Json.fieldsOf (CitationRecordSet.shape.encode r)) "citations" =
        some (.arr (r.citations.map Citation.codec.encode)) := by
      simp [Json.get_fieldsOf, CitationRecordSet.shape]
    cases written.symm.trans there
    cases written'.symm.trans there'
    have sameSources := jsonValuesEqual_self (CitationSource.codec.list.encode_wellFormed
      fun s (_ : s ∈ r.sources) => Codec.Leafless.intact (c := CitationSource.codec) s)
    have sameCitations := jsonValuesEqual_self (Citation.codec.list.encode_wellFormed
      fun c (_ : c ∈ r.citations) => citation_intact c)
    rw [Codec.list_encode] at sameSources sameCitations
    exact (normal_of_equal (deduplicateCitationRecords_eq_ok.mpr from_) sameSources sameCitations).1
  · intro normal
    refine ⟨(normalizeCitationRecords_encode normal).mpr ⟨rfl, within⟩, ?_⟩
    rw [← CitationRecordSet.codec.encode_roundTrip]
    exact (normalizeCitationRecords_encode normal.roundTrip).mpr ⟨rfl, WithinLimits.roundTrip.mpr within⟩

/-! ### Two sets -/

def CitationRecordSet.union (a b : CitationRecordSet) : CitationRecordSet where
  sources := a.sources ++ b.sources.filter fun s => s.sourceId ∉ a.sources.map CitationSource.sourceId
  citations := a.citations ++ b.citations.filter fun c => c.citationId ∉ a.citations.map Citation.citationId

structure CitationRecordSet.AgreesWith (a b : CitationRecordSet) : Prop where
  sources : ∀ s ∈ a.sources, ∀ other ∈ b.sources, s.sourceId = other.sourceId → s.fingerprint = other.fingerprint
  citations : ∀ c ∈ a.citations, ∀ other ∈ b.citations, c.citationId = other.citationId → c.fingerprint = other.fingerprint

omit [WebPlatform] in
/-- Records that agree within each list and between the first of their identities agree. -/
theorem agree_append {α : Type} {identity fingerprint : α → JsString} {l m : List α} (left : Agree identity fingerprint l)
    (right : Agree identity fingerprint m) (between : ∀ a ∈ firstSeen identity l, ∀ b ∈ firstSeen identity m,
      identity a = identity b → fingerprint a = fingerprint b) : Agree identity fingerprint (l ++ m) := by
  have crossing (a : α) (first : a ∈ l) (b : α) (second : b ∈ m) (same : identity a = identity b) :
      fingerprint a = fingerprint b := by
    obtain ⟨a', inside, like⟩ := firstSeen_key identity first
    obtain ⟨b', inside', like'⟩ := firstSeen_key identity second
    calc fingerprint a = fingerprint a' := left a first a' ((firstSeen_sublist _ _).subset inside) like.symm
      _ = fingerprint b' := between a' inside b' inside' (by rw [like, like', same])
      _ = fingerprint b := right b' ((firstSeen_sublist _ _).subset inside') b second like'
  intro a first b second same
  rcases List.mem_append.mp first with first | first
  · rcases List.mem_append.mp second with second | second
    · exact left a first b second same
    · exact crossing a first b second same
  · rcases List.mem_append.mp second with second | second
    · exact (crossing b second a first same.symm).symm
    · exact right a first b second same

omit [WebPlatform] in
theorem firstSeen_union {α : Type} {identity : α → JsString} (l m : List α) : firstSeen identity (l ++ m) =
    firstSeen identity l ++ (firstSeen identity m).filter fun a => identity a ∉ (firstSeen identity l).map identity := by
  rw [firstSeen_append]
  congr 1
  refine List.filter_congr fun a _ => ?_
  rw [decide_eq_decide, mem_map_firstSeen]

/-- The records of both inputs, taken together, are normalized to the union of the sets. -/
theorem NormalizedFrom.union {sources' citations' : List Json} {a b : CitationRecordSet}
    (first : NormalizedFrom sources citations a)
    (second : NormalizedFrom sources' citations' b) (agree : a.AgreesWith b)
    (fewSources : sources.length + sources'.length ≤ citationLimits.sourcesPerRecordSet)
    (fewCitations : citations.length + citations'.length ≤ citationLimits.citationsPerRecordSet)
    (bytes : utf8ByteLength (stringify (CitationRecordSet.codec.encode (a.union b))) ≤ citationLimits.totalSerializedUtf8Bytes) :
    NormalizedFrom (sources ++ sources') (citations ++ citations') (a.union b) := by
  obtain ⟨⟨given, each, own, kept⟩, ⟨given', each', own', kept'⟩, linked, -, -, -⟩ := first
  obtain ⟨⟨other, all, own₂, kept₂⟩, ⟨other', all', own₂', kept₂'⟩, linked₂, -, -, -⟩ := second
  refine ⟨⟨given ++ other, List.rel_append each all, ?_, ?_⟩, ⟨given' ++ other', List.rel_append each' all', ?_, ?_⟩, ?_,
    by rwa [List.length_append], by rwa [List.length_append], bytes⟩
  · exact agree_append own own₂ (kept ▸ kept₂ ▸ agree.sources)
  · rw [firstSeen_union, ← kept, ← kept₂]
    rfl
  · exact agree_append own' own₂' (kept' ▸ kept₂' ▸ agree.citations)
  · rw [firstSeen_union, ← kept', ← kept₂']
    rfl
  · intro c member
    rcases List.mem_append.mp member with member | member
    · obtain ⟨s, inside, same⟩ := linked c member
      exact ⟨s, List.mem_append_left _ inside, same⟩
    · obtain ⟨s, inside, same⟩ := linked₂ c (List.mem_filter.mp member).1
      by_cases known : s.sourceId ∈ a.sources.map CitationSource.sourceId
      · obtain ⟨s', inside', same'⟩ := List.mem_map.mp known
        exact ⟨s', List.mem_append_left _ inside', same'.trans same⟩
      · exact ⟨s, List.mem_append_right _ (List.mem_filter.mpr ⟨inside, decide_eq_true known⟩), same⟩

def recordsOf (sources citations : List Json) : Json := .obj [(js "sources", .arr sources), (js "citations", .arr citations)]

omit [WebPlatform] in
theorem recordsOf_input (sources citations : List Json) :
    RecordsInput (some (recordsOf sources citations)) sources citations := by
  have apart : js "citations" ≠ js "sources" := by decide
  refine ⟨_, rfl, ?_, ?_, ?_, ?_⟩
  · simp [Json.keys, Ne.symm apart]
  · intro key member
    simp only [Json.keys, List.map_cons, List.map_nil, List.mem_pair] at member
    rcases member with rfl | rfl
    · exact ⟨"sources", by simp, rfl⟩
    · exact ⟨"citations", by simp, rfl⟩
  · simp [Json.get]
  · simp [Json.get, List.lookup_cons, beq_eq_false_iff_ne.mpr apart]

omit [WebPlatform] in
theorem RecordsInput.arrays {input : Option Json} {sources' citations' : List Json} (one : RecordsInput input sources citations)
    (other : RecordsInput input sources' citations') : sources = sources' ∧ citations = citations' := by
  obtain ⟨fields, rfl, -, -, found, found'⟩ := one
  obtain ⟨fields', same, -, -, there, there'⟩ := other
  cases same
  cases found.symm.trans there
  cases found'.symm.trans there'
  exact ⟨rfl, rfl⟩

/-- Each record set is made of the first records of its identities, and is a fixed point exactly when the text of no web source's
URL matches a credential pattern; two of them that agree are normalized together to their union. -/
theorem citation_records_projected [WebUrlStandard] :
    (∀ input r, normalizeCitationRecords input = .ok r → ∃ sources citations, RecordsInput input sources citations ∧
      NormalizedFrom sources citations r ∧ r.WithinLimits ∧ (r.sources.map CitationSource.sourceId).Nodup ∧
      (r.citations.map Citation.citationId).Nodup ∧ (r.Again ↔ CleanUrls sources)) ∧
    ∀ sources citations sources' citations' a b,
      normalizeCitationRecords (some (recordsOf sources citations)) = .ok a →
      normalizeCitationRecords (some (recordsOf sources' citations')) = .ok b → a.AgreesWith b →
      sources.length + sources'.length ≤ citationLimits.sourcesPerRecordSet →
      citations.length + citations'.length ≤ citationLimits.citationsPerRecordSet →
      utf8ByteLength (stringify (CitationRecordSet.codec.encode (a.union b))) ≤ citationLimits.totalSerializedUtf8Bytes →
      normalizeCitationRecords (some (recordsOf (sources ++ sources') (citations ++ citations'))) = .ok (a.union b) := by
  refine ⟨?_, ?_⟩
  · intro input r accepted
    obtain ⟨sources, citations, given, from_⟩ := normalizeCitationRecords_eq_ok.mp accepted
    obtain ⟨own, -, -, kept⟩ := from_.sources_
    obtain ⟨own', -, -, kept'⟩ := from_.citations_
    refine ⟨sources, citations, given, from_, from_.within, ?_, ?_, (r.again_iff from_.within).trans from_.normal⟩
    · rw [kept]
      exact firstSeen_distinct _ _
    · rw [kept']
      exact firstSeen_distinct _ _
  · intro sources citations sources' citations' a b first second agree fewSources fewCitations bytes
    obtain ⟨_, _, given, from_⟩ := normalizeCitationRecords_eq_ok.mp first
    obtain ⟨rfl, rfl⟩ := given.arrays (recordsOf_input _ _)
    obtain ⟨_, _, given', from_'⟩ := normalizeCitationRecords_eq_ok.mp second
    obtain ⟨rfl, rfl⟩ := given'.arrays (recordsOf_input _ _)
    exact normalizeCitationRecords_eq_ok.mpr
      ⟨_, _, recordsOf_input _ _, from_.union from_' agree fewSources fewCitations bytes⟩

end

/-! ### A platform of two URLs -/

def plainUrl : Url := ⟨js "https:", .empty, .empty, [], .empty, js "example.com", js "https://example.com/"⟩

def keyUrl : Url := ⟨js "https:", .empty, .empty, [], .empty, js "sk-12345678.example", js "https://sk-12345678.example/"⟩

def sampleParse (text : JsString) : Option Url :=
  if text = js "https://EXAMPLE.com" ∨ text = plainUrl.href then some plainUrl
  else if text = js "https://%73k-12345678.example" ∨ text = keyUrl.href then some keyUrl
  else none

@[reducible] def samplePlatform : WebPlatform := ⟨sampleParse, fun _ => []⟩

theorem sampleParse_spec {text : JsString} {url : Url} (parsed : sampleParse text = some url) :
    url = plainUrl ∨ url = keyUrl := by
  unfold sampleParse at parsed
  split at parsed
  · exact .inl (Option.some.inj parsed).symm
  · split at parsed
    · exact .inr (Option.some.inj parsed).symm
    · cases parsed

theorem samplePlatform_standard : @WebUrlStandard samplePlatform := by
  refine @WebUrlStandard.mk samplePlatform ?_ ?_ ?_
  · intro text url parsed _
    rcases sampleParse_spec parsed with rfl | rfl
    · have reparsed : sampleParse plainUrl.href = some plainUrl := if_pos (Or.inr rfl)
      exact reparsed
    · have reparsed : sampleParse keyUrl.href = some keyUrl := by
        unfold sampleParse
        rw [if_neg (by decide), if_pos (Or.inr rfl)]
      exact reparsed
  · intro text url parsed _
    rcases sampleParse_spec parsed with rfl | rfl
    · exact units_pass (by decide +kernel)
    · exact units_pass (by decide +kernel)
  · intro text url parsed _
    rcases sampleParse_spec parsed with rfl | rfl
    · decide
    · decide

def webSource (locator : String) : Json :=
  .obj [(js "source_id", .str (js "a")), (js "type", .str (js "web")), (js "label", .str (js " A page")),
    (js "locator", .str (js locator))]

def setOf (url : Url) : CitationRecordSet := ⟨[⟨js "a", .web, js "A page", some url.href⟩], []⟩

/-- A label is trimmed and a host name mapped to lower case; the result stays. -/
theorem sample_projected : ∃ platform : WebPlatform,
    @normalizeCitationRecords platform (some (recordsOf [webSource "https://EXAMPLE.com"] [])) = .ok (setOf plainUrl) ∧
      (setOf plainUrl).Again := by
  have accepted : @normalizeCitationRecords samplePlatform (some (recordsOf [webSource "https://EXAMPLE.com"] [])) =
      .ok (setOf plainUrl) := by decide +kernel
  refine ⟨samplePlatform, accepted, ?_⟩
  obtain ⟨sources, citations, given, -, -, -, -, fixed⟩ :=
    (@citation_records_projected samplePlatform samplePlatform_standard).1 _ _ accepted
  obtain ⟨rfl, -⟩ := given.arrays (recordsOf_input _ _)
  refine fixed.mpr ?_
  rintro url ⟨source, raw, member, -, located, read⟩
  cases List.mem_singleton.mp member
  have text : js "https://EXAMPLE.com" = raw := by
    simpa [Json.get, webSource, List.lookup_cons] using located
  subst text
  have trimmed : trim (js "https://EXAMPLE.com") = js "https://EXAMPLE.com" := by decide +kernel
  have found : sampleParse (trim (js "https://EXAMPLE.com")) = some plainUrl := by
    rw [trimmed]
    exact if_pos (Or.inl rfl)
  cases found.symm.trans read
  decide +kernel

/-- The host name `%73k-12345678.example` is decoded to one that is taken for a key. -/
theorem decoded_host_refused : ∃ platform : WebPlatform, @WebUrlStandard platform ∧
    @normalizeCitationRecords platform (some (recordsOf [webSource "https://%73k-12345678.example"] [])) = .ok (setOf keyUrl) ∧
      @normalizeCitationRecords platform (some (CitationRecordSet.codec.encode (setOf keyUrl))) =
        .error ⟨js "$source.locator", js "must not contain credential material"⟩ :=
  ⟨samplePlatform, samplePlatform_standard, by decide +kernel, by decide +kernel⟩

end Handrail

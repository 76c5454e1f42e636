import Handrail.Js.Sorting
import Handrail.Js.Utf8Reading
import Handrail.ProviderContext.FingerprintReading

/-!
# What fingerprints identify

Contexts with one fingerprint are one normalized context. Inputs for one context have one fingerprint when no two of their
tools tie in the order that `localeCompare` gives to their texts.
-/

namespace Handrail.ProviderContext
open Js Conversation

/-! ### Fields replaced in place -/

/-- `{ ...fields, [key]: value }` for a key of the object. -/
def withField (fields : Fields) (key : String) (value : Json) : Fields :=
  fields.map fun field => if field.1 = js key then (field.1, value) else field

theorem keys_withField (fields : Fields) (key : String) (value : Json) :
    Json.keys (withField fields key value) = Json.keys fields := by
  unfold withField Json.keys
  rw [List.map_map]
  refine List.map_congr_left fun field _ => ?_
  rw [Function.comp_apply]
  split <;> rfl

theorem get_withField {fields : Fields} {key : String} {value old : Json} (given : Json.get fields key = some old) :
    Json.get (withField fields key value) key = some value := by
  unfold withField Json.get at *
  induction fields with
  | nil => cases given
  | cons field rest ih =>
    obtain ⟨name, held⟩ := field
    rw [List.lookup_cons] at given
    rw [List.map_cons]
    by_cases here : name = js key
    · rw [if_pos here, List.lookup_cons, here, beq_self_eq_true]
    · have other : (js key == name) = false := beq_eq_false_iff_ne.mpr (Ne.symm here)
      rw [other] at given
      rw [if_neg here, List.lookup_cons, other]
      exact ih given

theorem get_withField_ne {fields : Fields} {key other : String} {value : Json} (apart : other ≠ key) :
    Json.get (withField fields key value) other = Json.get fields other := by
  unfold withField Json.get
  induction fields with
  | nil => rfl
  | cons field rest ih =>
    obtain ⟨name, held⟩ := field
    rw [List.map_cons, List.lookup_cons]
    by_cases here : name = js key
    · have missed : (js other == name) = false := beq_eq_false_iff_ne.mpr fun same => apart (js_inj.mp (same.trans here))
      rw [if_pos here, List.lookup_cons, missed]
      exact ih
    · rw [if_neg here, List.lookup_cons, ih]

theorem sortFields_withField (fields : Fields) (key : String) (value : Json) :
    Json.sortFields (withField fields key value) = withField (Json.sortFields fields) key value := by
  refine (List.map_insertionSort Json.nameLe Json.nameLe _ fields fun a _ b _ => ?_).symm
  unfold Json.nameLe
  split <;> split <;> exact Iff.rfl

theorem bytes_withField {fields : Fields} {key : String} {value old : Json} (distinct : (Json.keys fields).Nodup)
    (given : Json.get fields key = some old) (bytes : textBytes old.canonical = textBytes value.canonical) :
    textBytes (Json.canonical (.obj (withField fields key value))) = textBytes (Json.canonical (.obj fields)) := by
  have inner : (withField fields key value).map (fun field => (field.1, field.2.canonical)) =
      withField (fields.map fun field => (field.1, field.2.canonical)) key value.canonical := by
    unfold withField
    rw [List.map_map, List.map_map]
    refine List.map_congr_left fun field _ => ?_
    rw [Function.comp_apply, Function.comp_apply]
    split <;> rfl
  rw [Json.canonical_obj, Json.canonical_obj, inner, sortFields_withField]
  refine (textBytes_obj ?_).symm
  unfold withField
  rw [List.forall₂_map_right_iff, List.forall₂_same]
  intro field member
  split
  · rename_i here
    refine ⟨rfl, ?_⟩
    obtain ⟨origin, inside, rfl⟩ := List.mem_map.mp ((Json.sortFields_perm _).mem_iff.mp member)
    have found : Json.get fields key = some origin.2 := by
      rw [Json.get, ← show origin.1 = js key from here]
      exact Json.lookup_of_mem distinct inside
    rw [given] at found
    cases found
    exact bytes
  · exact ⟨rfl, rfl⟩

/-! ### One text, one context -/

theorem unordered_arr (items : List Json) : unordered (.arr items) = .arr (items.map unordered) := by
  unfold unordered
  rw [Json.roundTrip_arr, Json.canonical_arr, List.map_map]
  rfl

theorem names_distinct {fields : List (String × Json)} (distinct : (fields.map Prod.fst).Nodup) :
    (Json.keys (Json.fieldsOf fields)).Nodup := (record_eq_ok.mp (record_object "" distinct)).2

theorem unordered_literal {fields other : List (String × Json)} (distinct : (fields.map Prod.fst).Nodup)
    (distinct' : (other.map Prod.fst).Nodup) (same : unordered (.object fields) = unordered (.object other)) (key : String) :
    (fields.lookup key).map unordered = (other.lookup key).map unordered := by
  have found := unordered_get (names_distinct distinct) (names_distinct distinct') same key
  rwa [Json.get_fieldsOf, Json.get_fieldsOf] at found

section
variable [Collation] [UnicodeForms]

structure Settled (c : NormalizedContext) : Prop where
  tools : ∀ tool ∈ c.tools, unordered tool = tool
  temperature : c.temperature.roundTrip = c.temperature
  providerSettings : unordered c.providerSettings = c.providerSettings

omit [Collation] in
theorem unordered_form (value : Json) : unordered (normalForm value) = normalForm value := by
  rw [unordered, (unordered_normalForm value).1, (unordered_normalForm value).2]

theorem Reads.settled {source model generation : Fields} {tools : List Json} {c : NormalizedContext}
    (reads : Reads source model generation tools c) : Settled c := by
  refine ⟨fun tool member => ?_, ?_, ?_⟩
  · rw [reads.sorted, sortTools] at member
    obtain ⟨origin, _, rfl⟩ := List.mem_map.mp ((List.perm_insertionSort toolLe _).mem_iff.mp member)
    exact unordered_form origin
  · obtain ⟨x, _, read⟩ := normalizeTemperature_ok reads.temperature
    rw [read, JsNumber.roundTrip_roundTrip]
  · have read := reads.providerSettings
    unfold normalizeSettings at read
    split at read
    · obtain ⟨origin, _, form, _⟩ := normalizeJson_ok (field_eq_ok.mp read)
      rw [form, unordered_form]
    · rw [← Except.ok.inj read]
      rfl

omit [Collation] [UnicodeForms] in
theorem positive_ext {m n : PositiveSafeInteger} (same : m.value = n.value) : m = n := by
  obtain ⟨value, _, _⟩ := m
  cases same
  rfl

omit [Collation] [UnicodeForms] in
theorem Settled.toJson_inj {c d : NormalizedContext} (left : Settled c) (right : Settled d)
    (same : canonicalJson c.toJson = canonicalJson d.toJson) : c = d := by
  have names (context : NormalizedContext) : (context.fields.map Prod.fst).Nodup := by simp [NormalizedContext.fields]
  have agree := unordered_literal (names c) (names d) (stringify_canonical_inj.mp same)
  have model := unordered_literal (by simp) (by simp) (Option.some.inj (agree "model"))
  have generation := unordered_literal (by simp) (by simp) (Option.some.inj (agree "generation"))
  have providers : c.providerId.text = d.providerId.text := Json.str.inj (Option.some.inj (model "provider_id"))
  have models : c.modelId.text = d.modelId.text := Json.str.inj (Option.some.inj (model "model_id"))
  have texts : c.instructions = d.instructions := by
    have items := Option.some.inj (agree "instructions")
    rw [unordered_arr, unordered_arr, List.map_map, List.map_map] at items
    exact List.map_injective_iff.mpr (fun _ _ text => Json.str.inj text) (Json.arr.inj items)
  have tools : c.tools = d.tools := by
    have items := Option.some.inj (agree "tools")
    rw [unordered_arr, unordered_arr] at items
    have fixed {tools : List Json} (each : ∀ tool ∈ tools, unordered tool = tool) : tools.map unordered = tools :=
      (List.map_congr_left each).trans (List.map_id _)
    have listed := Json.arr.inj items
    rwa [fixed left.tools, fixed right.tools] at listed
  have tokens : c.maxOutputTokens = d.maxOutputTokens := by
    have number := Json.num.inj (Option.some.inj (generation "max_output_tokens"))
    rw [JsNumber.roundTrip_ofNat, JsNumber.roundTrip_ofNat, JsNumber.ofNat_inj] at number
    exact positive_ext number
  have temperatures : c.temperature = d.temperature := by
    have number := Json.num.inj (Option.some.inj (generation "temperature"))
    rwa [left.temperature, right.temperature] at number
  have settings : c.providerSettings = d.providerSettings := by
    have value := Option.some.inj (agree "provider_settings")
    rwa [left.providerSettings, right.providerSettings] at value
  cases c
  cases d
  cases (ContextText.text_inj _ _).mp providers
  cases (ContextText.text_inj _ _).mp models
  cases texts
  cases tools
  cases tokens
  cases temperatures
  cases settings
  rfl

/-! ### Tools in another order -/

theorem Reads.reorder {a model generation : Fields} {tools tools' : List Json} {c : NormalizedContext}
    (reads : Reads a model generation tools c) (perm : tools.Perm tools') :
    ∃ b, SameContext a b ∧ Reads b model generation tools' { c with tools := sortTools (tools'.map normalForm) } := by
  have given := reads.normal.listed
  have others {key : String} (apart : key ≠ "tools") : Json.get (withField a "tools" (.arr tools')) key = Json.get a key :=
    get_withField_ne apart
  have owned (key : String) : Json.hasOwn (withField a "tools" (.arr tools')) key = Json.hasOwn a key := by
    rw [Bool.eq_iff_iff, Json.hasOwn_iff, Json.hasOwn_iff, keys_withField]
  refine ⟨withField a "tools" (.arr tools'), ⟨?_, ?_, ?_, ?_, ?_⟩, ?_⟩
  · rw [others (by decide)]
  · rw [others (by decide)]
  · rw [given, get_withField given]
    exact perm.map unordered
  · rw [others (by decide)]
  · rw [others (by decide)]
  · exact {
      distinct := by rw [keys_withField]; exact reads.distinct
      allowed := by
        have allowed := reads.allowed
        rw [allowedKeys_eq_ok] at allowed ⊢
        rw [keys_withField]
        exact allowed
      required := by
        have required := reads.required
        rw [requiredKeys_eq_ok] at required ⊢
        exact fun key member => (owned key).trans (required key member)
      isModel := by rw [others (by decide)]; exact reads.isModel
      modelAllowed := reads.modelAllowed
      modelRequired := reads.modelRequired
      normal := ⟨get_withField given, perm.length_eq ▸ reads.normal.bounded, fun tool member =>
        reads.normal.each tool (perm.mem_iff.mpr member)⟩
      sorted := rfl
      isGeneration := by rw [others (by decide)]; exact reads.isGeneration
      generationAllowed := reads.generationAllowed
      generationRequired := reads.generationRequired
      maxOutputTokens := reads.maxOutputTokens
      temperature := reads.temperature
      providerId := reads.providerId
      modelId := reads.modelId
      instructions := by rw [others (by decide)]; exact reads.instructions
      providerSettings := by
        have settings := reads.providerSettings
        unfold normalizeSettings field at settings ⊢
        rw [owned, others (by decide)]
        exact settings }

structure Fits (c : NormalizedContext) : Prop where
  settings : (encodeUtf8 (canonicalJson c.providerSettings)).length ≤ fingerprintLimits.providerSettingsSerializedBytes
  whole : (encodeUtf8 (canonicalJson c.toJson)).length ≤ fingerprintLimits.fingerprintSerializedBytes

omit [Collation] [UnicodeForms] in
theorem Fits.reorder {c : NormalizedContext} (fits : Fits c) {tools : List Json} (perm : c.tools.Perm tools) :
    Fits { c with tools := tools } := by
  refine ⟨fits.settings, ?_⟩
  have names : (c.fields.map Prod.fst).Nodup := by simp [NormalizedContext.fields]
  have given : Json.get (Json.fieldsOf c.fields) "tools" = some (.arr c.tools) := by
    rw [Json.get_fieldsOf]
    rfl
  have replaced : ({ c with tools := tools } : NormalizedContext).toJson =
    .obj (withField (Json.fieldsOf c.fields) "tools" (.arr tools)) := by
    simp [NormalizedContext.toJson, NormalizedContext.fields, Json.object, withField, Json.fieldsOf]
  have bytes : textBytes (Json.canonical (.arr c.tools)) = textBytes (Json.canonical (.arr tools)) := by
    rw [Json.canonical_arr, Json.canonical_arr]
    exact textBytes_arr (perm.map _)
  have same := bytes_withField (names_distinct names) given bytes
  rw [canonicalJson, replaced]
  exact (Nat.le_of_eq same).trans fits.whole

/-! ### Fingerprints -/

variable [Sha256]

omit [Collation] [UnicodeForms] in
def fingerprintOf (c : NormalizedContext) : JsString := js "sha256:" ++ Sha256.digest (encodeUtf8 (canonicalJson c.toJson))

theorem fingerprint_eq_ok {input : Option Json} {f : JsString} :
    createProviderContextFingerprint input = .ok f ↔ ∃ c, normalizeContext input = .ok c ∧ Fits c ∧ f = fingerprintOf c := by
  unfold createProviderContextFingerprint serializeContext
  constructor
  · intro created
    obtain ⟨serialized, read, created⟩ := bind_eq_ok.mp created
    obtain ⟨c, normalized, read⟩ := bind_eq_ok.mp read
    split at read
    · cases under_eq_ok.mp read
    split at read
    · cases read
    rename_i settings whole
    cases read
    cases created
    exact ⟨c, normalized, ⟨Nat.not_lt.mp settings, Nat.not_lt.mp whole⟩, rfl⟩
  · rintro ⟨c, normalized, fits, rfl⟩
    refine bind_eq_ok.mpr ⟨canonicalJson c.toJson, bind_eq_ok.mpr ⟨c, normalized, ?_⟩, rfl⟩
    rw [if_neg (Nat.not_lt.mpr fits.settings), if_neg (Nat.not_lt.mpr fits.whole)]

omit [Collation] [UnicodeForms] in
theorem fingerprintOf_inj (injective : Function.Injective (Sha256.digest)) {c d : NormalizedContext}
    (left : Settled c) (right : Settled d)
    (same : fingerprintOf c = fingerprintOf d) : c = d := by
  have digests : Sha256.digest (encodeUtf8 (canonicalJson c.toJson)) = Sha256.digest (encodeUtf8 (canonicalJson d.toJson)) :=
    JsString.ext (List.append_cancel_left (congrArg JsString.units same))
  exact left.toJson_inj right (encodeUtf8_stringify_inj (injective digests))

/-- `localeCompare` orders texts. Different texts can compare equal. -/
class LocaleOrder [Collation] : Prop where
  signs : ∀ a b : JsString, Collation.localeCompare a b ≤ 0 ↔ 0 ≤ Collation.localeCompare b a
  trans : ∀ a b c : JsString, Collation.localeCompare a b ≤ 0 → Collation.localeCompare b c ≤ 0 → Collation.localeCompare a c ≤ 0

omit [UnicodeForms] [Sha256] in
theorem tie_iff [LocaleOrder] {s t : Json} :
    Collation.localeCompare (canonicalJson s) (canonicalJson t) = 0 ↔ toolLe s t ∧ toolLe t s := by
  unfold toolLe
  rw [LocaleOrder.signs (canonicalJson t)]
  omega

instance [LocaleOrder] : Std.Total toolLe := by
  refine ⟨fun s t => ?_⟩
  unfold toolLe
  rw [LocaleOrder.signs (canonicalJson t)]
  omega

instance [LocaleOrder] : IsTrans Json toolLe := ⟨fun _ _ _ first second => LocaleOrder.trans _ _ _ first second⟩

def Differ (c d : NormalizedContext) : Prop :=
  c.providerId ≠ d.providerId ∨ c.modelId ≠ d.modelId ∨ c.instructions ≠ d.instructions ∨ ¬c.tools.Perm d.tools ∨
    c.maxOutputTokens ≠ d.maxOutputTokens ∨ c.temperature ≠ d.temperature ∨ c.providerSettings ≠ d.providerSettings

/-- The fingerprint of the input is that of every input for its context, and of no input for another one. -/
def Identifies (a : Fields) : Prop :=
  ∀ (b : Fields) (f g : JsString), createProviderContextFingerprint (some (.obj a)) = .ok f →
    createProviderContextFingerprint (some (.obj b)) = .ok g →
      (SameContext a b → f = g) ∧
      ∀ c d, normalizeContext (some (.obj a)) = .ok c → normalizeContext (some (.obj b)) = .ok d → Differ c d → f ≠ g

omit [Sha256] in
/-- Where no two tools tie, the context does not depend on how its input is written. -/
theorem SameContext.context_eq [LocaleOrder] {a b model model' generation generation' : Fields} {tools tools' : List Json}
    {c d : NormalizedContext} (same : SameContext a b) (left : Reads a model generation tools c)
    (right : Reads b model' generation' tools' d)
    (untied : ∀ s ∈ c.tools, ∀ t ∈ c.tools, Collation.localeCompare (canonicalJson s) (canonicalJson t) = 0 → s = t) : d = c := by
  obtain ⟨perm, rest⟩ := same.normalizes left right
  have member {s : Json} (inside : s ∈ tools.map normalForm) : s ∈ c.tools := by
    rw [left.sorted]
    exact (List.perm_insertionSort toolLe _).mem_iff.mpr inside
  have sorted : d.tools = c.tools := by
    rw [left.sorted, right.sorted]
    exact (insertionSort_congr (fun s first t second st ts =>
      untied s (member first) t (member second) (tie_iff.mpr ⟨st, ts⟩)) perm).symm
  rw [rest, sorted]

/-- Two orders of the tools that both have the fingerprint of the input are sorted alike. -/
theorem Identifies.sorts (injective : Function.Injective (Sha256.digest)) {a model generation : Fields} {tools : List Json}
    {c : NormalizedContext} (identifies : Identifies a) (reads : Reads a model generation tools c) (fits : Fits c)
    {tools' : List Json} (perm : tools.Perm tools') : c.tools = sortTools (tools'.map normalForm) := by
  obtain ⟨b, same, reordered⟩ := reads.reorder perm
  have kept : c.tools.Perm (sortTools (tools'.map normalForm)) := by
    rw [reads.sorted]
    exact (List.perm_insertionSort toolLe _).trans ((perm.map _).trans (List.perm_insertionSort toolLe _).symm)
  have left := fingerprint_eq_ok.mpr ⟨c, normalizeContext_eq_ok.mpr ⟨a, model, generation, tools, rfl, reads⟩, fits, rfl⟩
  have right := fingerprint_eq_ok.mpr
    ⟨_, normalizeContext_eq_ok.mpr ⟨b, model, generation, tools', rfl, reordered⟩, fits.reorder kept, rfl⟩
  have one := (identifies b _ _ left right).1 same
  exact congrArg NormalizedContext.tools (fingerprintOf_inj injective reads.settled reordered.settled one)

/-- With an injective hash, the fingerprint of an accepted input identifies its context exactly when no two different tools of it
have texts that compare equal. -/
theorem identifies_iff [LocaleOrder] (injective : Function.Injective (Sha256.digest)) (a : Fields) :
    Identifies a ↔ ∀ f c, createProviderContextFingerprint (some (.obj a)) = .ok f → normalizeContext (some (.obj a)) = .ok c →
      ∀ s ∈ c.tools, ∀ t ∈ c.tools, Collation.localeCompare (canonicalJson s) (canonicalJson t) = 0 → s = t := by
  constructor
  · intro identifies f c created normalized s first t second tie
    obtain ⟨_, read, fits, _⟩ := fingerprint_eq_ok.mp created
    cases normalized.symm.trans read
    obtain ⟨_, model, generation, tools, same, reads⟩ := normalizeContext_eq_ok.mp normalized
    cases same
    rw [reads.sorted] at first second
    obtain ⟨x, left, rfl⟩ := List.mem_map.mp ((List.perm_insertionSort toolLe _).mem_iff.mp first)
    obtain ⟨y, right, rfl⟩ := List.mem_map.mp ((List.perm_insertionSort toolLe _).mem_iff.mp second)
    by_cases one : x = y
    · rw [one]
    have front {tool : Json} {tools : List Json} (member : tool ∈ tools) : ∃ rest, tools.Perm (tool :: rest) := by
      obtain ⟨before, after, rfl⟩ := List.append_of_mem member
      exact ⟨before ++ after, List.perm_middle⟩
    obtain ⟨others, perm⟩ := front left
    obtain ⟨rest, perm'⟩ := front ((List.mem_cons.mp (perm.mem_iff.mp right)).resolve_left (Ne.symm one))
    have forth := identifies.sorts injective reads fits (perm.trans (perm'.cons x))
    have back := identifies.sorts injective reads fits ((perm.trans (perm'.cons x)).trans (List.Perm.swap y x rest))
    obtain ⟨st, ts⟩ := tie_iff.mp tie
    exact eq_of_insertionSort_swap st ts (forth.symm.trans back)
  · intro untied b f g created created'
    obtain ⟨c, normalized, fits, rfl⟩ := fingerprint_eq_ok.mp created
    obtain ⟨d, normalized', _, rfl⟩ := fingerprint_eq_ok.mp created'
    obtain ⟨_, model, generation, tools, same, reads⟩ := normalizeContext_eq_ok.mp normalized
    cases same
    obtain ⟨_, model', generation', tools', same, reads'⟩ := normalizeContext_eq_ok.mp normalized'
    cases same
    constructor
    · intro same
      rw [same.context_eq reads reads' (untied _ c created normalized)]
    · intro c' d' read read' differ one
      cases normalized.symm.trans read
      cases normalized'.symm.trans read'
      cases fingerprintOf_inj injective reads.settled reads'.settled one
      unfold Differ at differ
      simp at differ

end

/-! ### Tools that tie -/

def compareUnits (left right : List UInt16) : Int := if left = right then 0 else if left ≤ right then -1 else 1

theorem compareUnits_le_iff {left right : List UInt16} : compareUnits left right ≤ 0 ↔ left ≤ right := by
  unfold compareUnits
  by_cases same : left = right
  · rw [if_pos same, same]
    exact iff_of_true (by decide) (List.le_refl right)
  · rw [if_neg same]
    split <;> simp_all

theorem le_compareUnits_iff {left right : List UInt16} : 0 ≤ compareUnits left right ↔ right ≤ left := by
  unfold compareUnits
  by_cases same : left = right
  · rw [if_pos same, same]
    exact iff_of_true (by decide) (List.le_refl right)
  · rw [if_neg same]
    split
    · rename_i less
      exact iff_of_false (by decide) fun greater => same (List.le_antisymm less greater)
    · rename_i greater
      exact iff_of_true (by decide) ((List.le_total left right).resolve_left greater)

@[reducible] def ignoringSoftHyphens : Collation :=
  ⟨fun a b => compareUnits (a.units.filter (· != 0xad)) (b.units.filter (· != 0xad))⟩

theorem localeOrder_ignoringSoftHyphens : @LocaleOrder ignoringSoftHyphens :=
  @LocaleOrder.mk ignoringSoftHyphens (fun _ _ => compareUnits_le_iff.trans le_compareUnits_iff.symm) fun _ _ _ first second =>
    compareUnits_le_iff.mpr (List.le_trans (compareUnits_le_iff.mp first) (compareUnits_le_iff.mp second))

@[reducible] def composedTexts : UnicodeForms := ⟨id⟩

@[reducible] def bytesAsDigest : Sha256 := ⟨fun bytes => ⟨bytes.map fun byte => byte.toUInt16⟩⟩

theorem bytesAsDigest_injective : Function.Injective (@Sha256.digest bytesAsDigest) := by
  intro a b same
  exact List.map_injective_iff.mpr (fun x y units => by simpa using congrArg UInt16.toUInt8 units) (congrArg JsString.units same)

def sampleTool (description : JsString) : Json := .object [
  ("name", .str (js "search")), ("description", .str description), ("input_schema", .object [("type", .str (js "object"))])]

def sampleInput (tools : List Json) : Fields := Json.fieldsOf [
  ("model", .object [("provider_id", .str (js "openai")), ("model_id", .str (js "gpt-5"))]),
  ("instructions", .arr [.str (js "Answer briefly.")]),
  ("tools", .arr tools),
  ("generation", .object [("max_output_tokens", .num (.ofNat 64)), ("temperature", .num (.ofNat 1))])]

theorem sample_context [UnicodeForms] {tools tools' : List Json} (perm : tools.Perm tools') :
    SameContext (sampleInput tools) (sampleInput tools') := by
  refine ⟨?_, ?_, ?_, ?_, ?_⟩
  all_goals rw [sampleInput, sampleInput, Json.get_fieldsOf, Json.get_fieldsOf]
  · rfl
  · rfl
  · exact perm.map unordered
  · rfl
  · rfl

def reindex : Json := sampleTool (js "Reindex.")

def reindexHyphenated : Json := sampleTool (js "Re\u00adindex.")

def sampleDigested (tools : List Json) : Option JsString :=
  let _ := ignoringSoftHyphens
  let _ := composedTexts
  let _ := bytesAsDigest
  (createProviderContextFingerprint (some (.obj (sampleInput tools)))).toOption

theorem sample_accepted {tools : List Json} {f : JsString} (found : sampleDigested tools = some f) :
    @createProviderContextFingerprint ignoringSoftHyphens composedTexts bytesAsDigest
      (some (.obj (sampleInput tools))) = .ok f := by
  unfold sampleDigested at found
  dsimp only at found
  cases created : @createProviderContextFingerprint ignoringSoftHyphens composedTexts bytesAsDigest
    (some (.obj (sampleInput tools))) with
  | ok g =>
    rw [created] at found
    exact congrArg Except.ok (Option.some.inj found)
  | error e =>
    rw [created] at found
    cases found

/-- Two orders of one context's tools have two fingerprints. -/
theorem one_context_two_fingerprints : ∃ (_ : Collation) (_ : UnicodeForms)
    (_ : Sha256), LocaleOrder ∧ Function.Injective (Sha256.digest) ∧
    ∃ a b f g, SameContext a b ∧ createProviderContextFingerprint (some (.obj a)) = .ok f ∧
      createProviderContextFingerprint (some (.obj b)) = .ok g ∧ f ≠ g := by
  have apart : ((sampleDigested [reindex, reindexHyphenated]).any fun f =>
      (sampleDigested [reindexHyphenated, reindex]).any fun g => f != g) = true := by decide +kernel
  obtain ⟨f, first, found⟩ := (Option.any_eq_true _ _).mp apart
  obtain ⟨g, second, different⟩ := (Option.any_eq_true _ _).mp found
  refine ⟨ignoringSoftHyphens, composedTexts, bytesAsDigest, localeOrder_ignoringSoftHyphens, bytesAsDigest_injective,
    sampleInput [reindex, reindexHyphenated], sampleInput [reindexHyphenated, reindex], f, g, ?_, sample_accepted first,
    sample_accepted second, bne_iff_ne.mp different⟩
  exact @sample_context composedTexts _ _ (List.Perm.swap _ _ _)

def summarize : Json := sampleTool (js "Summarize.")

/-- Two tools whose texts compare apart have one fingerprint in both orders. -/
theorem sample_identified : ∃ (_ : Collation) (_ : UnicodeForms) (_ : Sha256), Identifies (sampleInput [summarize, reindex]) ∧
    ∃ f, createProviderContextFingerprint (some (.obj (sampleInput [summarize, reindex]))) = .ok f ∧
      createProviderContextFingerprint (some (.obj (sampleInput [reindex, summarize]))) = .ok f := by
  have both : ((sampleDigested [summarize, reindex]).any fun f => sampleDigested [reindex, summarize] == some f) = true := by
    decide +kernel
  obtain ⟨f, forth, back⟩ := (Option.any_eq_true _ _).mp both
  refine ⟨ignoringSoftHyphens, composedTexts, bytesAsDigest, ?_, f, sample_accepted forth, sample_accepted (eq_of_beq back)⟩
  let _ := ignoringSoftHyphens
  let _ := composedTexts
  let _ := bytesAsDigest
  have _ : LocaleOrder := localeOrder_ignoringSoftHyphens
  refine (identifies_iff bytesAsDigest_injective _).mpr ?_
  intro g c _ normalized s first t second tie
  obtain ⟨_, model, generation, tools, same, reads⟩ := normalizeContext_eq_ok.mp normalized
  cases same
  have listed := reads.normal.listed
  rw [sampleInput, Json.get_fieldsOf] at listed
  have listed : some (Json.arr [summarize, reindex]) = some (.arr tools) := listed
  cases listed
  have apart : Collation.localeCompare (canonicalJson (normalForm summarize)) (canonicalJson (normalForm reindex)) ≠ 0 ∧
      Collation.localeCompare (canonicalJson (normalForm reindex)) (canonicalJson (normalForm summarize)) ≠ 0 := by
    decide +kernel
  have either {tool : Json} (member : tool ∈ c.tools) : tool = normalForm summarize ∨ tool = normalForm reindex := by
    rw [reads.sorted] at member
    simpa using (List.perm_insertionSort toolLe _).mem_iff.mp member
  rcases either first with rfl | rfl
  · rcases either second with rfl | rfl
    · rfl
    · exact (apart.1 tie).elim
  · rcases either second with rfl | rfl
    · exact (apart.2 tie).elim
    · rfl

end Handrail.ProviderContext

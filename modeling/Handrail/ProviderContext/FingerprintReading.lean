import Handrail.ProviderContext.Fingerprint
import Handrail.ProviderContext.NormalForms

/-!
# How contexts are read

What an input holds that is normalized to a context, and what inputs for one context have in common then.
-/

namespace Handrail.ProviderContext
open Js Conversation

variable [Collation] [UnicodeForms]

/-! ### Tools -/

variable {value : Option Json}

omit [Collation] [UnicodeForms] in
theorem parseToolDefinition_ok {object : Fields} (parsed : Protocol.parseToolDefinition value = .ok object) :
    value = some (.obj object) := by
  unfold Protocol.parseToolDefinition at parsed
  obtain ⟨read, record, parsed⟩ := bind_eq_ok.mp parsed
  obtain ⟨_, _, parsed⟩ := bind_eq_ok.mp parsed
  obtain ⟨_, _, parsed⟩ := bind_eq_ok.mp parsed
  obtain ⟨_, _, parsed⟩ := bind_eq_ok.mp parsed
  obtain ⟨_, _, parsed⟩ := bind_eq_ok.mp parsed
  obtain ⟨_, _, parsed⟩ := bind_eq_ok.mp parsed
  obtain ⟨_, _, parsed⟩ := bind_eq_ok.mp parsed
  cases parsed
  exact (record_eq_ok.mp record).1

omit [Collation] in
theorem normalizeJson_ok {normalized : Json} (read : normalizeJson value = .ok normalized) :
    ∃ given, value = some given ∧ normalized = normalForm given ∧ given.wellFormed = true := by
  unfold normalizeJson at read
  split at read
  · rename_i given
    obtain ⟨⟨result, total⟩, visited, same⟩ := map_eq_ok.mp read
    obtain ⟨rfl, formed⟩ := settingVisit_ok visited
    exact ⟨given, rfl, same.symm, formed⟩
  · cases read

omit [Collation] in
theorem normalizeTool_eq_ok {index : Nat} {tool normalized : Json} :
    normalizeTool index tool = .ok normalized ↔
      ∃ parsed, Protocol.parseToolDefinition (some tool) = .ok parsed ∧ normalizeJson (some (.obj parsed)) = .ok normalized := by
  unfold normalizeTool
  rw [bind_eq_ok]
  exact exists_congr fun parsed => and_congr_right fun _ => under_eq_ok

omit [Collation] in
theorem normalizeTool_form {index : Nat} {tool normalized : Json} (read : normalizeTool index tool = .ok normalized) :
    normalized = normalForm tool ∧ tool.wellFormed = true := by
  obtain ⟨parsed, definition, read⟩ := normalizeTool_eq_ok.mp read
  have same := parseToolDefinition_ok definition
  obtain ⟨given, value, form, formed⟩ := normalizeJson_ok read
  cases same
  cases value
  exact ⟨form, formed⟩

omit [Collation] in
theorem normalizeEachTool_eq_ok {index : Nat} {tools normalized : List Json} :
    normalizeEachTool index tools = .ok normalized ↔
      (∀ tool ∈ tools, normalizeTool 0 tool = .ok (normalForm tool)) ∧ normalized = tools.map normalForm := by
  induction tools generalizing index normalized with
  | nil =>
    rw [normalizeEachTool]
    constructor
    · intro read
      cases read
      exact ⟨by simp, rfl⟩
    · rintro ⟨_, rfl⟩
      rfl
  | cons tool rest ih =>
    rw [normalizeEachTool]
    constructor
    · intro read
      obtain ⟨first, one, read⟩ := bind_eq_ok.mp read
      obtain ⟨others, more, read⟩ := bind_eq_ok.mp read
      cases read
      obtain ⟨rfl, _⟩ := normalizeTool_form one
      obtain ⟨each, rfl⟩ := ih.mp more
      exact ⟨List.forall_mem_cons.mpr ⟨normalizeTool_eq_ok.mpr (normalizeTool_eq_ok.mp one), each⟩, rfl⟩
    · rintro ⟨each, rfl⟩
      obtain ⟨one, each⟩ := List.forall_mem_cons.mp each
      rw [normalizeTool_eq_ok.mpr (normalizeTool_eq_ok.mp one), ih.mpr ⟨each, rfl⟩]
      rfl

/-- What `tools` holds when it is accepted. -/
structure ToolsNormalize (value : Option Json) (tools : List Json) : Prop where
  listed : value = some (.arr tools)
  bounded : tools.length ≤ fingerprintLimits.tools
  each : ∀ tool ∈ tools, normalizeTool 0 tool = .ok (normalForm tool)

theorem normalizeTools_eq_ok {sorted : List Json} :
    normalizeTools value = .ok sorted ↔ ∃ tools, ToolsNormalize value tools ∧ sorted = sortTools (tools.map normalForm) := by
  unfold normalizeTools
  constructor
  · intro read
    split at read
    · rename_i tools
      split at read
      · cases read
      · rename_i few
        obtain ⟨normalized, all, same⟩ := map_eq_ok.mp read
        obtain ⟨each, rfl⟩ := normalizeEachTool_eq_ok.mp all
        exact ⟨tools, ⟨rfl, Nat.not_lt.mp few, each⟩, same.symm⟩
    · cases read
  · rintro ⟨tools, ⟨rfl, few, each⟩, rfl⟩
    dsimp only
    rw [if_neg (Nat.not_lt.mpr few), normalizeEachTool_eq_ok.mpr ⟨each, rfl⟩]
    rfl

/-! ### Contexts -/

/-- What an input holds when it is normalized to `c`. -/
structure Reads (source model generation : Fields) (tools : List Json) (c : NormalizedContext) : Prop where
  distinct : (Json.keys source).Nodup
  allowed : allowedKeys source ["model", "instructions", "tools", "generation", "provider_settings"] = .ok ()
  required : requiredKeys source ["model", "instructions", "tools", "generation"] = .ok ()
  isModel : record "must be a plain JSON object" (Json.get source "model") = .ok model
  modelAllowed : allowedKeys model ["provider_id", "model_id"] = .ok ()
  modelRequired : requiredKeys model ["provider_id", "model_id"] = .ok ()
  normal : ToolsNormalize (Json.get source "tools") tools
  sorted : c.tools = sortTools (tools.map normalForm)
  isGeneration : record "must be a plain JSON object" (Json.get source "generation") = .ok generation
  generationAllowed : allowedKeys generation ["max_output_tokens", "temperature"] = .ok ()
  generationRequired : requiredKeys generation ["max_output_tokens", "temperature"] = .ok ()
  maxOutputTokens : safeInteger 1 "must be a safe integer greater than or equal to 1" (Json.get generation "max_output_tokens") =
    .ok c.maxOutputTokens
  temperature : normalizeTemperature (Json.get generation "temperature") = .ok c.temperature
  providerId : contextIdentifier (Json.get model "provider_id") = .ok c.providerId
  modelId : contextIdentifier (Json.get model "model_id") = .ok c.modelId
  instructions : normalizeInstructions (Json.get source "instructions") = .ok c.instructions
  providerSettings : normalizeSettings source = .ok c.providerSettings

theorem normalizeContext_eq_ok {input : Option Json} {c : NormalizedContext} :
    normalizeContext input = .ok c ↔ ∃ source model generation tools, input = some (.obj source) ∧
      Reads source model generation tools c := by
  unfold normalizeContext
  constructor
  · intro read
    obtain ⟨source, isRecord, read⟩ := bind_eq_ok.mp read
    obtain ⟨_, allowed, read⟩ := bind_eq_ok.mp read
    obtain ⟨_, required, read⟩ := bind_eq_ok.mp read
    obtain ⟨model, isModel, read⟩ := bind_eq_ok.mp read
    obtain ⟨_, modelAllowed, read⟩ := bind_eq_ok.mp read
    obtain ⟨_, modelRequired, read⟩ := bind_eq_ok.mp read
    obtain ⟨sorted, normalized, read⟩ := bind_eq_ok.mp read
    obtain ⟨generation, isGeneration, read⟩ := bind_eq_ok.mp read
    obtain ⟨_, generationAllowed, read⟩ := bind_eq_ok.mp read
    obtain ⟨_, generationRequired, read⟩ := bind_eq_ok.mp read
    obtain ⟨maxOutputTokens, tokens, read⟩ := bind_eq_ok.mp read
    obtain ⟨temperature, heat, read⟩ := bind_eq_ok.mp read
    obtain ⟨providerId, provider, read⟩ := bind_eq_ok.mp read
    obtain ⟨modelId, isModelId, read⟩ := bind_eq_ok.mp read
    obtain ⟨instructions, texts, read⟩ := bind_eq_ok.mp read
    obtain ⟨providerSettings, settings, read⟩ := bind_eq_ok.mp read
    cases read
    obtain ⟨rfl, distinct⟩ := record_eq_ok.mp isRecord
    obtain ⟨tools, normal, rfl⟩ := normalizeTools_eq_ok.mp normalized
    simp only [under_eq_ok, field_eq_ok] at modelAllowed modelRequired generationAllowed generationRequired tokens heat provider isModelId
    exact ⟨source, model, generation, tools, rfl, distinct, allowed, required, field_eq_ok.mp isModel,
      modelAllowed, modelRequired, normal,
      rfl, field_eq_ok.mp isGeneration, generationAllowed, generationRequired, tokens, heat, provider,
        isModelId, field_eq_ok.mp texts,
      settings⟩
  · rintro ⟨source, model, generation, tools, rfl, reads⟩
    have isModel : field source "model" (record "must be a plain JSON object") = .ok model := field_eq_ok.mpr reads.isModel
    have isGeneration : field source "generation" (record "must be a plain JSON object") = .ok generation :=
      field_eq_ok.mpr reads.isGeneration
    have tokens : field generation "max_output_tokens" (safeInteger 1 "must be a safe integer greater than or equal to 1") =
      .ok c.maxOutputTokens := field_eq_ok.mpr reads.maxOutputTokens
    have heat : field generation "temperature" normalizeTemperature = .ok c.temperature := field_eq_ok.mpr reads.temperature
    have provider : field model "provider_id" contextIdentifier = .ok c.providerId := field_eq_ok.mpr reads.providerId
    have isModelId : field model "model_id" contextIdentifier = .ok c.modelId := field_eq_ok.mpr reads.modelId
    have texts : field source "instructions" normalizeInstructions = .ok c.instructions := field_eq_ok.mpr reads.instructions
    rw [record_eq_ok.mpr ⟨rfl, reads.distinct⟩]
    dsimp only [bind, Except.bind]
    simp only [reads.allowed, reads.required, isModel, reads.modelAllowed, reads.modelRequired, under_ok,
      normalizeTools_eq_ok.mpr ⟨tools, reads.normal, reads.sorted⟩, isGeneration, reads.generationAllowed,
        reads.generationRequired, tokens, heat,
      provider, isModelId, texts, reads.providerSettings]
    rfl

/-! ### Inputs for one context -/

def instructionTextOf : Json → Option JsString
  | .str value => some (instructionText value)
  | _ => none

def instructionTexts : Option Json → List JsString
  | some (.arr values) => values.filterMap instructionTextOf
  | _ => []

omit [UnicodeForms] in
def toolForms : Option Json → List Json
  | some (.arr tools) => tools.map unordered
  | _ => []

/-- The inputs differ in the order of tools, the order of fields, the sign of zero and the normalization of instructions only. -/
structure SameContext (a b : Fields) : Prop where
  model : (Json.get a "model").map unordered = (Json.get b "model").map unordered
  instructions : instructionTexts (Json.get a "instructions") = instructionTexts (Json.get b "instructions")
  tools : (toolForms (Json.get a "tools")).Perm (toolForms (Json.get b "tools"))
  generation : (Json.get a "generation").map unordered = (Json.get b "generation").map unordered
  providerSettings : (Json.get a "provider_settings").map unordered = (Json.get b "provider_settings").map unordered

omit [Collation] [UnicodeForms] in
theorem unordered_get {fields other : Fields} (distinct : (Json.keys fields).Nodup) (distinct' : (Json.keys other).Nodup)
    (same : unordered (.obj fields) = unordered (.obj other)) (key : String) :
    (Json.get fields key).map unordered = (Json.get other key).map unordered := by
  have keys (fs : Fields) : Json.keys (fs.map fun field => (field.1, field.2.roundTrip)) = Json.keys fs := by
    simp [Json.keys, Function.comp_def]
  unfold unordered at same
  rw [Json.roundTrip_obj, Json.roundTrip_obj] at same
  have found := Json.canonical_get (keys fields ▸ distinct) same (keys other ▸ distinct') (js key)
  rw [Json.lookup_map_snd, Json.lookup_map_snd, Option.map_map, Option.map_map] at found
  exact found

omit [Collation] in
theorem instructions_eq {texts : List JsString} (read : normalizeInstructions value = .ok texts) :
    texts = instructionTexts value := by
  unfold normalizeInstructions at read
  split at read
  · rename_i values
    split at read
    · cases read
    rename_i few
    clear few
    rw [eachItem_eq_ok] at read
    rw [instructionTexts]
    induction read with
    | nil => rfl
    | @cons item text items texts one _ ih =>
      cases item with
      | str value =>
        dsimp only [normalizeInstruction] at one
        repeat' split at one
        all_goals cases one
        rw [ih]
        rfl
      | _ => cases one
  · cases read

omit [Collation] in
theorem settings_eq {a b : Fields} {left right : Json} (first : normalizeSettings a = .ok left)
    (second : normalizeSettings b = .ok right)
    (same : (Json.get a "provider_settings").map unordered = (Json.get b "provider_settings").map unordered) : left = right := by
  have read {fields : Fields} {normalized : Json} (settings : normalizeSettings fields = .ok normalized) :
      (Json.get fields "provider_settings" = none ∧ normalized = .obj []) ∨
        ∃ value, Json.get fields "provider_settings" = some value ∧ normalized = normalForm value ∧ value.wellFormed = true := by
    unfold normalizeSettings at settings
    rw [Json.hasOwn] at settings
    cases given : Json.get fields "provider_settings" with
    | none =>
      rw [given] at settings
      cases settings
      exact .inl ⟨rfl, rfl⟩
    | some value =>
      rw [given, Option.isSome_some, if_pos rfl] at settings
      rw [field_eq_ok, given] at settings
      obtain ⟨_, same, form, formed⟩ := normalizeJson_ok settings
      cases same
      exact .inr ⟨value, rfl, form, formed⟩
  rcases read first with ⟨absent, rfl⟩ | ⟨value, given, rfl, formed⟩
  · rcases read second with ⟨_, rfl⟩ | ⟨value', given', _, _⟩
    · rfl
    · rw [absent, given'] at same
      cases same
  · rcases read second with ⟨absent', _⟩ | ⟨value', given', rfl, formed'⟩
    · rw [given, absent'] at same
      cases same
    · rw [given, given'] at same
      exact normalForm_congr formed formed' (Option.some.inj same)

omit [Collation] [UnicodeForms] in
theorem identifier_eq {left right : Option Json} {a b : ContextIdentifier} (first : contextIdentifier left = .ok a)
    (second : contextIdentifier right = .ok b) (same : left.map unordered = right.map unordered) : a = b := by
  rw [safeString_eq_ok.mp first, safeString_eq_ok.mp second] at same
  have text : a.text = b.text := Json.str.inj (Option.some.inj same)
  exact (a.text_inj b).mp text

omit [Collation] [UnicodeForms] in
theorem number_eq {left right : Option Json} {x y : JsNumber} (first : left = some (.num x)) (second : right = some (.num y))
    (same : left.map unordered = right.map unordered) : x.roundTrip = y.roundTrip := by
  rw [first, second] at same
  exact Json.num.inj (Option.some.inj same)

omit [Collation] [UnicodeForms] in
theorem safeInteger_ok {min : Nat} {message : String} {n : SafeInteger min}
    (read : safeInteger min message value = .ok n) : ∃ x, value = some (.num x) ∧ x.safeNat? = some n.value := by
  unfold safeInteger at read
  split at read
  · rename_i x
    split at read
    · rename_i m found
      cases read
      exact ⟨x, rfl, readSafeInteger_eq_some.mp found⟩
    · cases read
  · cases read

omit [Collation] [UnicodeForms] in
theorem normalizeTemperature_ok {t : JsNumber} (read : normalizeTemperature value = .ok t) :
    ∃ x, value = some (.num x) ∧ t = x.roundTrip := by
  unfold normalizeTemperature at read
  split at read
  · rename_i x
    split at read
    · cases read
      exact ⟨x, rfl, rfl⟩
    · cases read
  · cases read

/-- Inputs for one context are normalized to contexts that differ in the order of tools at most. -/
theorem SameContext.normalizes {a b model model' generation generation' : Fields} {tools tools' : List Json}
    {c d : NormalizedContext}
    (same : SameContext a b) (left : Reads a model generation tools c) (right : Reads b model' generation' tools' d) :
    (tools.map normalForm).Perm (tools'.map normalForm) ∧ d = { c with tools := d.tools } := by
  obtain ⟨isModel, distinct⟩ := record_eq_ok.mp left.isModel
  obtain ⟨isModel', distinct'⟩ := record_eq_ok.mp right.isModel
  have inModel := unordered_get distinct distinct' (by simpa [isModel, isModel'] using same.model)
  obtain ⟨isGeneration, names⟩ := record_eq_ok.mp left.isGeneration
  obtain ⟨isGeneration', names'⟩ := record_eq_ok.mp right.isGeneration
  have inGeneration := unordered_get names names' (by simpa [isGeneration, isGeneration'] using same.generation)
  have providers := identifier_eq left.providerId right.providerId (inModel "provider_id")
  have models := identifier_eq left.modelId right.modelId (inModel "model_id")
  have texts : c.instructions = d.instructions := by
    rw [instructions_eq left.instructions, instructions_eq right.instructions, same.instructions]
  have settings := settings_eq left.providerSettings right.providerSettings same.providerSettings
  have tokens : c.maxOutputTokens = d.maxOutputTokens := by
    obtain ⟨x, given, read⟩ := safeInteger_ok left.maxOutputTokens
    obtain ⟨y, given', read'⟩ := safeInteger_ok right.maxOutputTokens
    have number := number_eq given given' (inGeneration "max_output_tokens")
    rw [← JsNumber.safeNat?_roundTrip, number, JsNumber.safeNat?_roundTrip] at read
    exact Option.some.inj ((readSafeInteger_eq_some.mpr read).symm.trans (readSafeInteger_eq_some.mpr read'))
  have temperatures : c.temperature = d.temperature := by
    obtain ⟨x, given, read⟩ := normalizeTemperature_ok left.temperature
    obtain ⟨y, given', read'⟩ := normalizeTemperature_ok right.temperature
    rw [read, read']
    exact number_eq given given' (inGeneration "temperature")
  constructor
  · have listed := same.tools
    rw [left.normal.listed, right.normal.listed] at listed
    have forms {tools : List Json} (each : ∀ tool ∈ tools, normalizeTool 0 tool = .ok (normalForm tool)) :
        (tools.map unordered).map normalForm = tools.map normalForm := by
      rw [List.map_map]
      exact List.map_congr_left fun tool member => normalForm_unordered (normalizeTool_form (each tool member)).2
    rw [← forms left.normal.each, ← forms right.normal.each]
    exact listed.map normalForm
  · cases c
    cases d
    cases providers
    cases models
    cases texts
    cases settings
    cases tokens
    cases temperatures
    rfl

end Handrail.ProviderContext

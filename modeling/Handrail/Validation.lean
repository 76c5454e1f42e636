import Handrail.Js.JsonText
import Handrail.Js.Codec
import Handrail.Js.Pattern
import Handrail.Js.Date

/-!
# Checks on untrusted JSON

The checks that `events.ts` and `citations.ts` build their parsers from. A check returns what it
read or the first failure. The source hands every check the path of its value; here the path of a
failure is relative to the value and `under` puts the caller's segment before it. `undefined` is
`none`.
-/

namespace Handrail
open Js

structure ValidationError where
  path : JsString
  message : JsString
deriving DecidableEq, Repr

abbrev Checked := Except ValidationError

def fail {α : Type} (message : JsString) : Checked α := .error ⟨JsString.empty, message⟩

def decimal (n : Nat) : JsString := (JsNumber.ofNat n).text

/-- A failure of `check` reported below `segment`. -/
def under {α : Type} (segment : JsString) (check : Checked α) : Checked α :=
  check.mapError fun e => { e with path := segment ++ e.path }

variable {α : Type}

@[simp] theorem under_ok (segment : JsString) (value : α) :
    under segment (.ok value) = .ok value := rfl

@[simp] theorem under_eq_ok {segment : JsString} {check : Checked α} {value : α} :
    under segment check = .ok value ↔ check = .ok value := by
  cases check <;> simp [under, Except.mapError]

/-- `parse(object[key], path + "." + key)` -/
def field {α : Type} (object : Fields) (key : String) (parse : Option Json → Checked α) : Checked α :=
  under (js "." ++ js key) (parse (Json.get object key))

@[simp] theorem field_eq_ok {object : Fields} {key : String} {parse : Option Json → Checked α}
    {value : α} : field object key parse = .ok value ↔ parse (Json.get object key) = .ok value :=
  under_eq_ok

/-- `parse` on every item, from index `i` on. -/
def eachItem {α : Type} (parse : Option Json → Checked α) : Nat → List Json → Checked (List α)
  | _, [] => .ok []
  | i, item :: rest => do
    let value ← under (js "[" ++ decimal i ++ js "]") (parse (some item))
    let values ← eachItem parse (i + 1) rest
    .ok (value :: values)

theorem bind_eq_ok {ε α β : Type} {check : Except ε α} {next : α → Except ε β} {value : β} :
    (check >>= next) = .ok value ↔ ∃ a, check = .ok a ∧ next a = .ok value := by
  cases check <;> simp [bind, Except.bind]

theorem map_eq_ok {ε α β : Type} {f : α → β} {check : Except ε α} {value : β} :
    check.map f = .ok value ↔ ∃ a, check = .ok a ∧ f a = value := by
  cases check <;> simp [Except.map]

theorem eachItem_eq_ok {parse : Option Json → Checked α} {i : Nat} {items : List Json}
    {values : List α} : eachItem parse i items = .ok values ↔
      List.Forall₂ (fun item value => parse (some item) = .ok value) items values := by
  induction items generalizing i values with
  | nil => cases values <;> simp [eachItem]
  | cons item rest ih =>
    simp only [eachItem, bind_eq_ok, under_eq_ok, ih, Except.ok.injEq]
    constructor
    · rintro ⟨value, parsed, values, each, rfl⟩
      exact .cons parsed each
    · rintro (_ | ⟨parsed, each⟩)
      exact ⟨_, parsed, _, each, rfl⟩

theorem eachItem_mem {parse : Option Json → Checked α} {i : Nat} {items : List Json} {values : List α}
    (accepted : eachItem parse i items = .ok values) {value : α} (member : value ∈ values) :
    ∃ item, parse (some item) = .ok value := by
  rw [eachItem_eq_ok] at accepted
  induction accepted with
  | nil => cases member
  | cons parsed _ ih =>
    rcases List.mem_cons.mp member with rfl | later
    · exact ⟨_, parsed⟩
    · exact ih later

/-! ### Objects -/

def record (message : String) : Option Json → Checked Fields
  | some (.obj fields) => if (Json.keys fields).Nodup then .ok fields else fail (js message)
  | _ => fail (js message)

theorem record_eq_ok {message : String} {value : Option Json} {fields : Fields} :
    record message value = .ok fields ↔ value = some (.obj fields) ∧ (Json.keys fields).Nodup := by
  unfold record
  split
  · rename_i distinct
    split
    · simp only [Except.ok.injEq, Option.some.injEq, Json.obj.injEq, iff_self_and]
      rintro rfl
      assumption
    · simp only [fail, reduceCtorEq, Option.some.injEq, Json.obj.injEq, false_iff, not_and]
      rintro rfl
      assumption
  · rename_i other
    simp only [fail, reduceCtorEq, false_iff, not_and]
    rintro rfl
    exact (other _ rfl).elim

/-- Every field of the object is one of `keys`. -/
def allowedKeys (object : Fields) (keys : List String) : Checked Unit :=
  match (Json.keys object).find? fun key => !keys.any (js · == key) with
  | some key => under (js "." ++ key) (fail (js "is not a supported field"))
  | none => .ok ()

/-- The object has every one of `keys`. -/
def requiredKeys (object : Fields) (keys : List String) : Checked Unit :=
  match keys.find? fun key => !Json.hasOwn object key with
  | some key => under (js "." ++ js key) (fail (js "is required"))
  | none => .ok ()

theorem allowedKeys_eq_ok {object : Fields} {keys : List String} :
    allowedKeys object keys = .ok () ↔ ∀ key ∈ Json.keys object, ∃ allowed ∈ keys, js allowed = key := by
  unfold allowedKeys
  split
  · rename_i key found
    simp only [under, fail, Except.mapError, reduceCtorEq, false_iff]
    intro all
    obtain ⟨allowed, member, same⟩ := all key (List.mem_of_find?_eq_some found)
    have absent := List.find?_some found
    simp only [Bool.not_eq_true', List.any_eq_false, beq_iff_eq] at absent
    exact absent allowed member same
  · rename_i none
    simp only [List.find?_eq_none, Bool.not_eq_true, Bool.not_eq_false', List.any_eq_true, beq_iff_eq] at none
    simpa using none

theorem requiredKeys_eq_ok {object : Fields} {keys : List String} :
    requiredKeys object keys = .ok () ↔ ∀ key ∈ keys, Json.hasOwn object key = true := by
  unfold requiredKeys
  split
  · rename_i key found
    simp only [under, fail, Except.mapError, reduceCtorEq, false_iff]
    intro all
    have absent := List.find?_some found
    simp [all key (List.mem_of_find?_eq_some found)] at absent
  · rename_i none
    simpa using none

/-! ### Strings -/

/-- A string of at most `maxLength` code units, empty only when `allowEmpty`. -/
structure BoundedText (allowEmpty : Bool) (maxLength : Nat) where
  text : JsString
  nonempty : allowEmpty = true ∨ 0 < text.length
  bounded : text.length ≤ maxLength
deriving DecidableEq

theorem BoundedText.ext {allowEmpty : Bool} {maxLength : Nat} {a b : BoundedText allowEmpty maxLength}
    (same : a.text = b.text) : a = b := by
  cases a
  cases b
  cases same
  rfl

def stringValue (allowEmpty : Bool) (maxLength : Nat) : Option Json → Checked (BoundedText allowEmpty maxLength)
  | some (.str text) =>
    if nonempty : allowEmpty = true ∨ 0 < text.length then
      if bounded : text.length ≤ maxLength then .ok ⟨text, nonempty, bounded⟩
      else fail (js "must be at most " ++ decimal maxLength ++ js " characters")
    else fail (js "must not be empty")
  | _ => fail (js "must be a string")

def BoundedText.toJson {allowEmpty : Bool} {maxLength : Nat} (t : BoundedText allowEmpty maxLength) : Json :=
  .str t.text

@[simp] theorem stringValue_toJson {allowEmpty : Bool} {maxLength : Nat} (t : BoundedText allowEmpty maxLength) :
    stringValue allowEmpty maxLength (some t.toJson) = .ok t := by
  simp only [BoundedText.toJson, stringValue, t.nonempty, t.bounded, ↓reduceDIte]

theorem stringValue_eq_ok {allowEmpty : Bool} {maxLength : Nat} {value : Option Json}
    {t : BoundedText allowEmpty maxLength} :
    stringValue allowEmpty maxLength value = .ok t ↔ value = some t.toJson := by
  constructor
  · unfold stringValue
    split
    · split
      · split
        · simp only [Except.ok.injEq]
          rintro rfl
          rfl
        · simp [fail]
      · simp [fail]
    · simp [fail]
  · rintro rfl
    exact stringValue_toJson t

/-! ### Enumerations -/

class Enumeration (α : Type) where
  text : α → String
  values : List α
  mem_values : ∀ a, a ∈ values
  text_injective : ∀ {a b : α}, text a = text b → a = b

def literal {α : Type} [Enumeration α] (a : α) : Json := .str (js (Enumeration.text a))

/-- The first of `values` whose literal is `text`. -/
def valueOf {α : Type} [Enumeration α] (values : List α) (text : JsString) : Option α :=
  values.find? fun a => js (Enumeration.text a) == text

theorem valueOf_eq_some [Enumeration α] {values : List α} {text : JsString} {a : α} :
    valueOf values text = some a ↔ a ∈ values ∧ text = js (Enumeration.text a) := by
  unfold valueOf
  constructor
  · intro found
    have same := List.find?_some found
    exact ⟨List.mem_of_find?_eq_some found, (eq_of_beq same).symm⟩
  · rintro ⟨member, rfl⟩
    induction values with
    | nil => cases member
    | cons b rest ih =>
      rw [List.find?_cons]
      by_cases same : Enumeration.text b = Enumeration.text a
      · rw [same, beq_self_eq_true, Enumeration.text_injective same]
      · have later : a ∈ rest := by
          rcases List.mem_cons.mp member with rfl | later
          · exact (same rfl).elim
          · exact later
        rw [js_beq, beq_eq_false_iff_ne.mpr same]
        exact ih later

def enumValue {α : Type} [Enumeration α] (values : List α) : Option Json → Checked α
  | some (.str text) =>
    match valueOf values text with
    | some a => .ok a
    | none => fail (js ("must be one of: " ++ ", ".intercalate (values.map Enumeration.text)))
  | _ => fail (js ("must be one of: " ++ ", ".intercalate (values.map Enumeration.text)))

theorem enumValue_eq_ok [Enumeration α] {values : List α} {value : Option Json} {a : α} :
    enumValue values value = .ok a ↔ a ∈ values ∧ value = some (literal a) := by
  unfold enumValue
  split
  · rename_i text
    split
    · rename_i b found
      obtain ⟨member, rfl⟩ := valueOf_eq_some.mp found
      simp only [Except.ok.injEq, literal, Option.some.injEq, Json.str.injEq, js_inj]
      constructor
      · rintro rfl
        exact ⟨member, rfl⟩
      · rintro ⟨_, same⟩
        exact Enumeration.text_injective same
    · rename_i none
      simp only [fail, reduceCtorEq, literal, Option.some.injEq, Json.str.injEq, false_iff, not_and]
      rintro member rfl
      rw [valueOf_eq_some.mpr ⟨member, rfl⟩] at none
      cases none
  · rename_i other
    simp only [fail, reduceCtorEq, false_iff, not_and]
    rintro _ rfl
    exact other _ rfl

def enumeration {α : Type} [Enumeration α] : Codec α :=
  Codec.text (fun a => js (Enumeration.text a)) (valueOf Enumeration.values)
    (fun a => valueOf_eq_some.mpr ⟨Enumeration.mem_values a, rfl⟩)
    (fun found => (valueOf_eq_some.mp found).2)

theorem enumeration_ne_null [Enumeration α] (a : α) : enumeration.encode a ≠ .null := nofun

/-! ### Text -/

@[simp] theorem enumeration_encode [Enumeration α] (a : α) : enumeration.encode a = literal a := rfl

instance {α : Type} [Enumeration α] : (enumeration (α := α)).Leafless := ⟨fun _ _ => rfl, fun _ => trivial⟩

/-- `normalizeFieldName`: `value.toLowerCase().replace(/[^a-z0-9]/g, "")`. Beside the letters
`A` to `Z`, only the Kelvin sign and the dotted capital I lower to an ASCII letter. -/
def normalizeFieldName (value : JsString) : JsString :=
  ⟨value.units.filterMap fun c =>
    if 65 ≤ c && c ≤ 90 then some (c + 32)
    else if c == 0x212a then some 107
    else if c == 0x130 then some 105
    else if (97 ≤ c && c ≤ 122) || (48 ≤ c && c ≤ 57) then some c
    else none⟩

/-- `utf8ByteLength` on the code units of a string. -/
def utf8Bytes : List UInt16 → Nat
  | [] => 0
  | [c] => if c ≤ 0x7f then 1 else if c ≤ 0x7ff then 2 else 3
  | c :: d :: rest =>
    if c ≤ 0x7f then 1 + utf8Bytes (d :: rest)
    else if c ≤ 0x7ff then 2 + utf8Bytes (d :: rest)
    else if isLeadingSurrogate c && isTrailingSurrogate d then 4 + utf8Bytes rest
    else 3 + utf8Bytes (d :: rest)

def utf8ByteLength (value : JsString) : Nat := utf8Bytes value.units

theorem ascii_not_trailing {a : UInt16} (ascii : a ≤ 0x7f) : isTrailingSurrogate a = false := by
  simp only [isTrailingSurrogate, Bool.and_eq_false_iff, decide_eq_false_iff_not]
  left
  intro high
  exact absurd (UInt16.le_trans high ascii) (by decide)

/-- An ASCII character is no part of a surrogate pair, so the text before it is measured alone. -/
theorem utf8Bytes_append_ascii {a : UInt16} (ascii : a ≤ 0x7f) (rest : List UInt16) :
    ∀ before, utf8Bytes (before ++ a :: rest) = utf8Bytes before + utf8Bytes (a :: rest)
  | [] => by simp [utf8Bytes]
  | [c] => by
    simp only [List.cons_append, List.nil_append, utf8Bytes, ascii_not_trailing ascii, Bool.and_false,
      Bool.false_eq_true, ↓reduceIte]
    split
    · rfl
    · split <;> rfl
  | c :: d :: before => by
    have one := utf8Bytes_append_ascii ascii rest (d :: before)
    have two := utf8Bytes_append_ascii ascii rest before
    simp only [List.cons_append] at one ⊢
    simp only [utf8Bytes, one, two]
    split
    · rw [Nat.add_assoc]
    · split
      · rw [Nat.add_assoc]
      · split <;> rw [Nat.add_assoc]

/-- `[a-z0-9]` under the flag `i`, or one of `others`. -/
def alphanumericOr (others : String) : Pattern :=
  .unit fun c => Pattern.isAlphanumeric c || Pattern.oneOf others c

def matchesAny (patterns : List Pattern) (value : JsString) : Bool := patterns.any (·.test value)

/-- `names.has(normalizeFieldName(value))` -/
def namedIn (names : List String) (value : JsString) : Bool :=
  names.any fun name => js name == normalizeFieldName value

theorem enumValue_literal [Enumeration α] {values : List α} {a : α} (member : a ∈ values) :
    enumValue values (some (literal a)) = .ok a :=
  enumValue_eq_ok.mpr ⟨member, rfl⟩

def optionalField {α : Type} (object : Fields) (key : String) (parse : Option Json → Checked α) :
    Checked (Option α) :=
  if Json.hasOwn object key then (field object key parse).map some else .ok none

theorem optionalField_eq_ok {object : Fields} {key : String} {parse : Option Json → Checked α}
    {value : Option α} : optionalField object key parse = .ok value ↔
      (value = none ∧ Json.get object key = none) ∨
        ∃ j a, Json.get object key = some j ∧ parse (some j) = .ok a ∧ value = some a := by
  unfold optionalField Json.hasOwn
  cases found : Json.get object key with
  | none => simp [eq_comm]
  | some j =>
    simp only [Option.isSome_some, ↓reduceIte, field, found]
    cases parsed : parse (some j) <;> simp [under, Except.mapError, Except.map, parsed, eq_comm]

/-! ### Object literals -/

section
variable {fields : List (String × Json)} {keys : List String}

theorem record_object (message : String) (distinct : (fields.map Prod.fst).Nodup) :
    record message (some (Json.object fields)) = .ok (Json.fieldsOf fields) := by
  refine record_eq_ok.mpr ⟨rfl, ?_⟩
  have names : Json.keys (Json.fieldsOf fields) = (fields.map Prod.fst).map js := by simp [Json.keys, Json.fieldsOf]
  rw [names]
  exact distinct.map fun _ _ same => js_inj.mp same

theorem allowedKeys_fieldsOf (known : ∀ key ∈ fields.map Prod.fst, key ∈ keys) :
    allowedKeys (Json.fieldsOf fields) keys = .ok () := by
  rw [allowedKeys_eq_ok]
  intro key member
  obtain ⟨entry, listed, rfl⟩ := List.mem_map.mp member
  obtain ⟨field, written, rfl⟩ := List.mem_map.mp listed
  exact ⟨field.1, known _ (List.mem_map_of_mem written), rfl⟩

theorem requiredKeys_fieldsOf (given : ∀ key ∈ keys, (fields.lookup key).isSome) :
    requiredKeys (Json.fieldsOf fields) keys = .ok () := by
  rw [requiredKeys_eq_ok]
  intro key member
  rw [Json.hasOwn, Json.get_fieldsOf]
  exact given key member

theorem field_fieldsOf {β : Type} {parse : Option Json → Checked β} {key : String} {value : Json} {b : β}
    (found : fields.lookup key = some value) (accepted : parse (some value) = .ok b) :
    field (Json.fieldsOf fields) key parse = .ok b := by
  rwa [field_eq_ok, Json.get_fieldsOf, found]

end

/-! ### Objects that a codec wrote -/

section
variable {α : Type} (s : Shape α) (a : α)

theorem record_encode (message : String) :
    record message (some ((Codec.object s).encode a)) = .ok (Json.fieldsOf (s.encode a)) :=
  record_eq_ok.mpr ⟨rfl, s.keys_encode_nodup a⟩

theorem allowedKeys_encode {keys : List String} (known : ∀ key ∈ s.keys, key ∈ keys) :
    allowedKeys (Json.fieldsOf (s.encode a)) keys = .ok () := by
  rw [allowedKeys_eq_ok]
  intro key member
  obtain ⟨name, inside, same⟩ := s.mem_keys_encode member
  exact ⟨name, known name inside, same⟩

theorem field_encode {β : Type} {parse : Option Json → Checked β} {key : String} {value : β}
    (accepted : parse ((s.encode a).lookup key) = .ok value) :
    field (Json.fieldsOf (s.encode a)) key parse = .ok value := by
  rwa [field_eq_ok, Json.get_fieldsOf]

theorem optionalField_encode {β : Type} {parse : Option Json → Checked β} {w : β → Json} {key : String}
    {value : Option β} (found : (s.encode a).lookup key = value.map w)
    (accepted : ∀ b ∈ value, parse (some (w b)) = .ok b) :
    optionalField (Json.fieldsOf (s.encode a)) key parse = .ok value := by
  rw [optionalField_eq_ok, Json.get_fieldsOf, found]
  cases value with
  | none => exact .inl ⟨rfl, rfl⟩
  | some b => exact .inr ⟨w b, b, rfl, accepted b rfl, rfl⟩

theorem requiredKeys_encode {keys : List String}
    (given : ∀ key ∈ keys, ∃ value, (s.encode a).lookup key = some value) :
    requiredKeys (Json.fieldsOf (s.encode a)) keys = .ok () := by
  rw [requiredKeys_eq_ok]
  intro key member
  obtain ⟨value, found⟩ := given key member
  rw [Json.hasOwn, Json.get_fieldsOf, found]
  rfl

end

end Handrail

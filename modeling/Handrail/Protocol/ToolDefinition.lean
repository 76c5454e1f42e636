import Handrail.Protocol.Boundary

/-!
# Tool definitions

`parseToolDefinition` of `protocol.ts`: the name, the description and the JSON Schema of a tool's input.
-/

namespace Handrail.Protocol
open Js

/-- `JSON_SCHEMA_TYPES` -/
inductive JsonSchemaType where
  | array
  | boolean
  | integer
  | null
  | number
  | object
  | string
deriving DecidableEq, Repr

instance : Enumeration JsonSchemaType where
  text
    | .array => "array"
    | .boolean => "boolean"
    | .integer => "integer"
    | .null => "null"
    | .number => "number"
    | .object => "object"
    | .string => "string"
  values := [.array, .boolean, .integer, .null, .number, .object, .string]
  mem_values a := by cases a <;> simp
  text_injective {a b} same := by cases a <;> cases b <;> simp_all

/-- `forEach` over parsed items, each of them read for the first time. -/
def eachUnique {α : Type} [DecidableEq α] (parse : Option Json → Checked α) : List α → Nat → List Json → Checked Unit
  | _, _, [] => .ok ()
  | seen, i, item :: rest => do
    let value ← under (js "[" ++ decimal i ++ js "]") (parse (some item))
    if value ∈ seen then under (js "[" ++ decimal i ++ js "]") (fail (js "must be unique"))
    else eachUnique parse (value :: seen) (i + 1) rest

/-- The `type` of a schema. -/
def validateSchemaType (root : Bool) (schema : Fields) : Checked Unit := do
  if root && !(match Json.get schema "type" with | some (.str text) => text == js "object" | _ => false) then
    under (js ".type") (fail (js "must equal \"object\""))
  else
    match Json.get schema "type" with
    | none => .ok ()
    | some (.arr []) => under (js ".type") (fail (js "must not be empty"))
    | some (.arr types) => under (js ".type") (eachUnique (enumValue (Enumeration.values (α := JsonSchemaType))) [] 0 types)
    | some other => do
      let _ ← under (js ".type") (enumValue (Enumeration.values (α := JsonSchemaType)) (some other))
      .ok ()

/-- The names under `required`. -/
def validateRequired (schema : Fields) : Checked Unit :=
  match Json.get schema "required" with
  | none => .ok ()
  | some (.arr names) => under (js ".required") (eachUnique identifierValue [] 0 names)
  | some _ => under (js ".required") (fail (js "must be an array"))

def validateEnum (schema : Fields) : Checked Unit :=
  match Json.get schema "enum" with
  | none => .ok ()
  | some (.arr (_ :: _)) => .ok ()
  | some _ => under (js ".enum") (fail (js "must be a non-empty array"))

def validateBound (schema : Fields) (keyword : String) : Checked Unit :=
  match Json.get schema keyword with
  | none => .ok ()
  | some (.num _) => .ok ()
  | some _ => under (js "." ++ js keyword) (fail (js "must be a finite number"))

def schemaMaps : List String := ["properties", "patternProperties", "$defs", "definitions", "dependentSchemas"]

def schemaChildren : List String :=
  ["additionalProperties", "unevaluatedProperties", "items", "contains", "not", "if", "then", "else", "propertyNames"]

def schemaLists : List String := ["allOf", "anyOf", "oneOf", "prefixItems"]

def numericKeywords : List String := [
  "multipleOf", "maximum", "exclusiveMaximum", "minimum", "exclusiveMinimum", "maxLength", "minLength", "maxItems", "minItems",
  "maxContains", "minContains", "maxProperties", "minProperties"]

mutual
def validateJsonSchemaNode (root : Bool) : Json → Checked Unit
  | .bool _ => if root then fail (js "must be a JSON object") else .ok ()
  | .obj schema => do
    let _ ← record "must be a JSON object" (some (.obj schema))
    validateSchemaType root schema
    schemaMaps.forM fun keyword => schemaMapAt keyword schema
    validateRequired schema
    schemaChildren.forM fun keyword => schemaAt keyword schema
    schemaLists.forM fun keyword => schemaListAt keyword schema
    validateEnum schema
    numericKeywords.forM (validateBound schema)
  | _ => fail (js "must be a JSON object")
termination_by structural value => value
def schemaMapAt (keyword : String) : Fields → Checked Unit
  | [] => .ok ()
  | (key, value) :: rest =>
    if key = js keyword then under (js "." ++ js keyword) (namedSchemas value) else schemaMapAt keyword rest
termination_by structural fields => fields
def namedSchemas : Json → Checked Unit
  | .obj schemas => do
    let _ ← record "must be a JSON object" (some (.obj schemas))
    eachNamed schemas
  | _ => fail (js "must be a JSON object")
termination_by structural value => value
def eachNamed : Fields → Checked Unit
  | [] => .ok ()
  | (name, child) :: rest => do
    under (js "." ++ name) (validateJsonSchemaNode false child)
    eachNamed rest
termination_by structural fields => fields
def schemaAt (keyword : String) : Fields → Checked Unit
  | [] => .ok ()
  | (key, value) :: rest =>
    if key = js keyword then under (js "." ++ js keyword) (validateJsonSchemaNode false value) else schemaAt keyword rest
termination_by structural fields => fields
def schemaListAt (keyword : String) : Fields → Checked Unit
  | [] => .ok ()
  | (key, value) :: rest =>
    if key = js keyword then under (js "." ++ js keyword) (listedSchemas value) else schemaListAt keyword rest
termination_by structural fields => fields
def listedSchemas : Json → Checked Unit
  | .arr (child :: rest) => do
    under (js "[0]") (validateJsonSchemaNode false child)
    eachListed 1 rest
  | _ => fail (js "must be a non-empty array of JSON Schemas")
termination_by structural value => value
def eachListed (index : Nat) : List Json → Checked Unit
  | [] => .ok ()
  | child :: rest => do
    under (js "[" ++ decimal index ++ js "]") (validateJsonSchemaNode false child)
    eachListed (index + 1) rest
termination_by structural items => items
end

/-- `parseToolDefinition`, which returns the value that `validateToolDefinition` let through. -/
def parseToolDefinition (value : Option Json) : Checked Fields := do
  let object ← record "must be a JSON object" value
  requiredKeys object ["name", "description", "input_schema"]
  allowedKeys object ["name", "description", "input_schema"]
  let _ ← field object "name" identifierValue
  let _ ← field object "description" (stringValue false protocolLimits.textLength)
  let schema ← field object "input_schema" credentialFreeRecord
  under (js ".input_schema") (validateJsonSchemaNode true (.obj schema))
  return object

end Handrail.Protocol

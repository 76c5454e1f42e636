import Handrail.Catalog.InMemory
import Handrail.Js.UriDecoding

/-!
# Pages of a catalog

`paginateConversationCatalogDescriptors` of `catalog.ts`, its cursors, and `parseListConversationsInput`.
-/

namespace Handrail.Catalog
open Js Conversation

/-- The members of `CONVERSATION_CATALOG_LIMITS` that pages are held to. -/
structure PageLimits where
  cursorLength := 1024
  pageSizeDefault := 50
  pageSizeMaximum := 100

def pageLimits : PageLimits := {}

/-! ### Orders -/

inductive OrderField where
  | updatedAt
  | createdAt
deriving DecidableEq, Repr

/-- `CONVERSATION_CATALOG_ORDER_FIELDS` -/
instance : Enumeration OrderField where
  text
    | .updatedAt => "updated_at"
    | .createdAt => "created_at"
  values := [.updatedAt, .createdAt]
  mem_values a := by cases a <;> simp
  text_injective {a b} same := by cases a <;> cases b <;> simp_all

inductive OrderDirection where
  | asc
  | desc
deriving DecidableEq, Repr

/-- `CONVERSATION_CATALOG_ORDER_DIRECTIONS` -/
instance : Enumeration OrderDirection where
  text
    | .asc => "asc"
    | .desc => "desc"
  values := [.asc, .desc]
  mem_values a := by cases a <;> simp
  text_injective {a b} same := by cases a <;> cases b <;> simp_all

structure CatalogOrder where
  field : OrderField
  direction : OrderDirection
deriving DecidableEq, Repr

/-- `DEFAULT_CONVERSATION_CATALOG_ORDER` -/
def defaultOrder : CatalogOrder := ⟨.updatedAt, .desc⟩

def CatalogOrder.toJson (order : CatalogOrder) : Json :=
  .object [("field", literal order.field), ("direction", literal order.direction)]

def parseConversationCatalogOrder (value : Option Json) : CatalogChecked CatalogOrder := do
  let source ← exactKeys .list (value.getD defaultOrder.toJson) ["field", "direction"] ["field", "direction"]
  match enumValue Enumeration.values (Json.get source "field"), enumValue Enumeration.values (Json.get source "direction") with
  | .ok field, .ok direction => .ok ⟨field, direction⟩
  | _, _ => invalid .list

def parseConversationCatalogPageSize : Option Json → CatalogChecked Nat
  | none => .ok pageLimits.pageSizeDefault
  | some (.num x) =>
    match x.safeNat? with
    | some n => if 1 ≤ n ∧ n ≤ pageLimits.pageSizeMaximum then .ok n else invalid .list
    | none => invalid .list
  | some _ => invalid .list

/-! ### Cursors -/

/-- What the functions of a page throw: an error of the catalog, or the `URIError` of `encodeURIComponent`. -/
abbrev PageChecked := Except (Option CatalogError)

def refuse {α : Type} (check : CatalogChecked α) : PageChecked α := check.mapError some

/-- `CURSOR_PREFIX` -/
def cursorPrefix : JsString := js "handrail.catalog.v1"

def encodeCursorPart (value : JsString) : PageChecked JsString :=
  match encodeURIComponent value with
  | some encoded => .ok encoded
  | none => .error none

def decodeCursorPart (value : JsString) : Option JsString :=
  (decodeURIComponent value).filter fun decoded => encodeURIComponent decoded == some value

structure DecodedCursor where
  order : CatalogOrder
  primary : JsString
  conversationId : ConversationId

section
variable [DatePlatform]

def decodeCursor (value : Option Json) (expectedOrder : Option CatalogOrder) : CatalogChecked DecodedCursor :=
  match value with
  | some (.str text) =>
    if text.length = 0 ∨ pageLimits.cursorLength < text.length then invalid .list
    else
      match text.units.splitOn 124 with
      | [start, field, direction, primary, conversationId] => do
        if (⟨start⟩ : JsString) ≠ cursorPrefix then invalid .list
        else
          let order ← parseConversationCatalogOrder (some (.object [("field", .str ⟨field⟩), ("direction", .str ⟨direction⟩)]))
          if expectedOrder.any (· ≠ order) then invalid .list
          else
            match decodeCursorPart ⟨primary⟩, decodeCursorPart ⟨conversationId⟩ with
            | some primaryValue, some conversationIdValue => do
              let primary ← parseTimestamp .list (some (.str primaryValue))
              let conversationId ← parseIdentifier .list (some (.str conversationIdValue))
              .ok { order, primary, conversationId }
            | _, _ => invalid .list
      | _ => invalid .list
  | _ => invalid .list

omit [DatePlatform] in
def CatalogDescriptor.primary (d : CatalogDescriptor) : OrderField → JsString
  | .updatedAt => d.updatedAt
  | .createdAt => d.createdAt

def createConversationCatalogCursor (descriptor : Json) (order : Option Json) : PageChecked JsString := do
  let parsedDescriptor ← refuse (parseConversationCatalogDescriptor descriptor)
  let parsedOrder ← refuse (parseConversationCatalogOrder order)
  let primary ← encodeCursorPart (parsedDescriptor.primary parsedOrder.field)
  let conversationId ← encodeCursorPart parsedDescriptor.conversationId.text
  .ok ⟨[124].intercalate [cursorPrefix.units, (js (Enumeration.text parsedOrder.field)).units,
    (js (Enumeration.text parsedOrder.direction)).units, primary.units, conversationId.units]⟩

/-! ### Comparison -/

omit [DatePlatform] in
def compareKey (leftPrimary leftId rightPrimary rightId : JsString) (direction : OrderDirection) : Int :=
  if leftPrimary ≠ rightPrimary then
    let comparison : Int := if leftPrimary < rightPrimary then -1 else 1
    if direction = .asc then comparison else -comparison
  else if leftId = rightId then 0
  else if leftId < rightId then -1 else 1

omit [DatePlatform] in
/-- `compareKey` of two descriptors that were parsed. -/
def compareParsed (order : CatalogOrder) (left right : CatalogDescriptor) : Int :=
  compareKey (left.primary order.field) left.conversationId.text (right.primary order.field) right.conversationId.text order.direction

def compareConversationCatalogDescriptors (left right : Json) (order : Option Json) : CatalogChecked Int := do
  let parsedOrder ← parseConversationCatalogOrder order
  let leftDescriptor ← parseConversationCatalogDescriptor left
  let rightDescriptor ← parseConversationCatalogDescriptor right
  .ok (compareParsed parsedOrder leftDescriptor rightDescriptor)

/-! ### Pages -/

structure ListConversationsResult where
  items : List CatalogDescriptor
  nextCursor : Option JsString
  hasMore : Bool
  order : CatalogOrder

omit [DatePlatform] in
/-- `sort` of parsed descriptors, which the comparison parses again as themselves. -/
def sortDescriptors (order : CatalogOrder) (descriptors : List CatalogDescriptor) : List CatalogDescriptor :=
  descriptors.insertionSort fun left right => compareParsed order left right ≤ 0

omit [DatePlatform] in
def afterCursor (order : CatalogOrder) (sorted : List CatalogDescriptor) : Option DecodedCursor → List CatalogDescriptor
  | none => sorted
  | some cursor => sorted.filter fun d =>
    0 < compareKey (d.primary order.field) d.conversationId.text cursor.primary cursor.conversationId.text order.direction

def cursorAfter (order : CatalogOrder) (hasMore : Bool) (finalItem : Option CatalogDescriptor) : PageChecked (Option JsString) :=
  match hasMore, finalItem with
  | true, some finalItem => (createConversationCatalogCursor finalItem.toJson (some order.toJson)).map some
  | _, _ => .ok none

def paginateConversationCatalogDescriptors (descriptors : List Json) (pageSize order cursor : Option Json) :
    PageChecked ListConversationsResult := do
  let pageSize ← refuse (parseConversationCatalogPageSize pageSize)
  let order ← refuse (parseConversationCatalogOrder order)
  let cursor ← refuse (whenGiven (decodeCursor · (some order)) cursor)
  let parsed ← refuse (descriptors.mapM parseConversationCatalogDescriptor)
  let sorted := sortDescriptors order parsed
  let remaining := afterCursor order sorted cursor
  let hasMore := decide (pageSize < remaining.length)
  let items := remaining.take pageSize
  let nextCursor ← cursorAfter order hasMore items.getLast?
  .ok { items, nextCursor, hasMore, order }

/-! ### Requests for a page -/

inductive LifecycleFilter where
  | active
  | archived
  | all
deriving DecidableEq, Repr

instance : Enumeration LifecycleFilter where
  text
    | .active => "active"
    | .archived => "archived"
    | .all => "all"
  values := [.active, .archived, .all]
  mem_values a := by cases a <;> simp
  text_injective {a b} same := by cases a <;> cases b <;> simp_all

/-- `source.lifecycle ?? "active"` -/
def parseLifecycle (value : Option Json) : CatalogChecked LifecycleFilter :=
  if value.isNone || isNullValue value then .ok .active
  else
    match enumValue Enumeration.values value with
    | .ok lifecycle => .ok lifecycle
    | .error _ => invalid .list

structure ListConversationsInput (Ctx : Type) where
  authorizationContext : Ctx
  lifecycle : LifecycleFilter
  pageSize : Nat
  order : CatalogOrder
  cursor : Option JsString

/-- `parseConversationCatalogCursor`, which returns the text that it could decode. -/
def parseConversationCatalogCursor (value : Option Json) (expectedOrder : Option CatalogOrder) : CatalogChecked JsString := do
  let _ ← decodeCursor value expectedOrder
  match value with
  | some (.str text) => .ok text
  | _ => invalid .list

def parseListConversationsInput {Ctx : Type} (input : CatalogInput Ctx) : CatalogChecked (ListConversationsInput Ctx) := do
  let source ← exactKeys .list input.source ["lifecycle", "pageSize", "order", "cursor"] []
  let authorizationContext ← requiredContext .list input
  let order ← parseConversationCatalogOrder (Json.get source "order")
  let cursor ← whenGiven (parseConversationCatalogCursor · (some order)) (Json.get source "cursor")
  let lifecycle ← parseLifecycle (Json.get source "lifecycle")
  let pageSize ← parseConversationCatalogPageSize (Json.get source "pageSize")
  return { authorizationContext, lifecycle, pageSize, order, cursor }

end

end Handrail.Catalog

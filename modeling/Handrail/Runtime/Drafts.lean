import Handrail.Conversation.Log

/-!
# `runtime.ts`: drafts of durable events

The runtime numbers its drafts behind its state, and the store takes them when that is still the end
of the log. What the tool loop has recorded before is left out.
-/

namespace Handrail.Runtime
open Js Conversation

structure EventDraft where
  actor : Actor
  source : Source
  mutationId : Option Identifier
  metadata : Option JsonObject
  payload : ConversationEventPayload

/-- What the clock and `createId("event")` give to one attempt to persist. -/
structure Stamp where
  occurredAt : Timestamp
  eventIds : List Identifier

def draftEvent (conversationId : Identifier) (revision : Nat) (eventId : Identifier) (occurredAt : Timestamp)
    (draft : EventDraft) : ConversationEvent where
  eventId := eventId
  conversationId := conversationId
  revision := revision
  occurredAt := occurredAt
  actor := draft.actor
  source := draft.source
  mutationId := draft.mutationId
  metadata := draft.metadata
  payload := draft.payload

def draftEvents (conversationId : Identifier) (occurredAt : Timestamp) :
    Nat → List Identifier → List EventDraft → List ConversationEvent
  | revision, eventId :: eventIds, draft :: drafts =>
    draftEvent conversationId revision eventId occurredAt draft ::
      draftEvents conversationId occurredAt (revision + 1) eventIds drafts
  | _, _, _ => []

def acceptsAll (s : ConversationState) : List ConversationEvent → Bool
  | [] => true
  | event :: rest =>
    !s.isProcessed event && (s.envelopeError event).isNone && acceptsAll (reduceConversationEvent s event) rest

/-- `persistGenerated` of the only writer, `none` when it throws. -/
def persist (conversationId : Identifier) (s : ConversationState) (stamp : Stamp) (drafts : List EventDraft) :
    Option ConversationState :=
  let events := draftEvents conversationId stamp.occurredAt s.expectedRevision stamp.eventIds drafts
  if events.length = drafts.length ∧ acceptsAll s events then some (foldEvents s events) else none

/-! ### Recorded facts of the tool loop -/

def resultBody (content : List ToolResultPart) (isError : Bool) (citationRecords : Option CitationRecordSet) : Json :=
  Json.object <| [("content", ToolResultPart.codec.list.encode content), ("is_error", .bool isError)] ++
    (citationRecords.map fun records => ("citation_records", CitationRecordSet.codec.encode records)).toList

/-- Records that are all retained; `none` when one conflicts with the retained record of its identity. -/
def retainsAll {α : Type} (c : Codec α) (identity : α → JsString) (retained : List (Retained c)) : List α → Option Bool
  | [] => some true
  | record :: rest =>
    match retained.find? fun existing => identity existing.record == identity record with
    | none => some false
    | some existing =>
      if stringify existing.json ≠ stringify (c.encode record) then none else retainsAll c identity retained rest

/-- `toolLoopEventAlreadyRecorded`, `none` when it throws. -/
def toolLoopEventAlreadyRecorded (s : ConversationState) : ConversationEventPayload → Option Bool
  | .toolCallResultRecorded turnId toolCallId content isError citationRecords =>
    match (s.toolCalls.find? fun call => call.turnId == turnId && call.toolCallId == toolCallId).bind (·.result) with
    | none => some false
    | some result =>
      if stringify (resultBody result.content result.isError result.citationRecords) ≠
          stringify (resultBody content isError citationRecords) then none
      else some true
  | .citationRecordsLinked _ records => do
    let sources ← retainsAll CitationSource.codec CitationSource.sourceId s.citationSources records.sources
    if !sources then some false
    else retainsAll Citation.codec Citation.citationId s.citations records.citations
  | _ => some false

def unrecorded (s : ConversationState) : List ConversationEventPayload → Option (List ConversationEventPayload)
  | [] => some []
  | payload :: rest => do
    let recorded ← toolLoopEventAlreadyRecorded s payload
    let others ← unrecorded s rest
    some (if recorded then others else payload :: others)

def toolLoopDraft (payload : ConversationEventPayload) : EventDraft where
  actor := ⟨match payload with
    | .toolLoopBudgetExhausted .. => .system
    | _ => .tool, none⟩
  source := .runtime
  mutationId := none
  metadata := none
  payload := payload

/-- `recordToolLoopEvents`, `none` when it throws. -/
def recordToolLoopEvents (conversationId : Identifier) (s : ConversationState) (stamp : Stamp)
    (payloads : List ConversationEventPayload) : Option ConversationState := do
  let fresh ← unrecorded s payloads
  if fresh.isEmpty then some s else persist conversationId s stamp (fresh.map toolLoopDraft)

end Handrail.Runtime

import Handrail.Js.Lines
import Handrail.Js.Text

/-!
# Server-sent events

`IncrementalSseParser`: the bytes of a response come in chunks, and frames come out. What the decoder of the platform makes
of the bytes is left to it.
-/

namespace Handrail.Transports
open Js

/-- `new TextDecoder("utf-8", { fatal: true })`, read as a stream. -/
structure TextDecoder where
  State : Type
  start : State
  /-- `decode(chunk, { stream: true })` -/
  decode : State → List UInt8 → Option (State × List UInt16)
  /-- `decode()` at the end does not throw. -/
  ends : State → Bool
  decode_nil : ∀ s, decode s [] = some (s, [])
  decode_append : ∀ s first second, decode s (first ++ second) =
    (decode s first).bind fun (s, text) => (decode s second).map fun (s, more) => (s, text ++ more)

structure ServerSentEventFrame where
  event : Option JsString
  id : Option JsString
  data : Option JsString
deriving DecidableEq, Repr

def defaultMaxLineLength : Nat := 1048576

def defaultMaxDataLength : Nat := 2097152

/-- Options that `boundedPositiveInteger` lets through. -/
structure SseLimits where
  maxLineLength : Nat
  maxDataLength : Nat
  line : 1 ≤ maxLineLength ∧ maxLineLength ≤ defaultMaxLineLength
  data : 1 ≤ maxDataLength ∧ maxDataLength ≤ defaultMaxDataLength

inductive SseError where
  /-- "The SSE parser is already finished" -/
  | finished
  /-- What the decoder throws. -/
  | malformed
  /-- "An SSE line exceeded the configured limit" -/
  | lineTooLong
  /-- "An SSE id must not contain a null character" -/
  | nullInId
  /-- "SSE event data exceeded the configured limit" -/
  | dataTooLong
deriving DecidableEq, Repr

structure SseFields where
  event : Option JsString
  id : Option JsString
  data : List JsString
  dataLength : Nat
  recognizedField : Bool
deriving DecidableEq, Repr

structure IncrementalSseParser (decoder : TextDecoder) where
  limits : SseLimits
  decoder : decoder.State
  buffer : List UInt16
  fields : SseFields
  finished : Bool

def carriageReturn : UInt16 := 0x0d
def lineFeed : UInt16 := 0x0a
def colon : UInt16 := 0x3a
def space : UInt16 := 0x20

/-- `data.join("\n")` -/
def joinLines : List JsString → List UInt16
  | [] => []
  | [line] => line.units
  | line :: rest => line.units ++ lineFeed :: joinLines rest

namespace SseFields

def empty : SseFields := ⟨none, none, [], 0, false⟩

def dispatch (f : SseFields) : SseFields × List ServerSentEventFrame :=
  if f.recognizedField then
    (empty, [⟨f.event, f.id, if f.data = [] then none else some ⟨joinLines f.data⟩⟩])
  else (f, [])

def separate (line : List UInt16) : JsString × JsString :=
  let value := (line.dropWhile (· ≠ colon)).drop 1
  (⟨line.takeWhile (· ≠ colon)⟩, ⟨if value.head? = some space then value.drop 1 else value⟩)

def consumeLine (limits : SseLimits) (f : SseFields) (line : List UInt16) :
    Except SseError (SseFields × List ServerSentEventFrame) :=
  if limits.maxLineLength < line.length then .error .lineTooLong
  else if line = [] then .ok f.dispatch
  else if line.head? = some colon then .ok (f, [])
  else
    let (field, value) := separate line
    if field = js "event" then .ok ({ f with event := some value, recognizedField := true }, [])
    else if field = js "id" then
      if 0 ∈ value.units then .error .nullInId
      else .ok ({ f with id := some value, recognizedField := true }, [])
    else if field = js "data" then
      if limits.maxDataLength < f.dataLength + value.length + f.data.length then .error .dataTooLong
      else .ok ({ f with
        data := f.data ++ [value]
        dataLength := f.dataLength + value.length
        recognizedField := true }, [])
    else .ok (f, [])

/-- The loop of `#drain` over what is left of the buffer; `line` is what the search for its end has passed. With the fields
and the frames, what stays in the buffer. -/
def drainLines (limits : SseLimits) (eof : Bool) (f : SseFields) (frames : List ServerSentEventFrame) (line : List UInt16) :
    List UInt16 → Except SseError (SseFields × List ServerSentEventFrame × List UInt16)
  | [] =>
    if eof ∧ line ≠ [] then do
      let (f, more) ← f.consumeLine limits line
      return (f, frames ++ more, [])
    else .ok (f, frames, line)
  | [unit] =>
    if unit ≠ carriageReturn ∧ unit ≠ lineFeed then
      if eof then do
        let (f, more) ← f.consumeLine limits (line ++ [unit])
        return (f, frames ++ more, [])
      else .ok (f, frames, line ++ [unit])
    -- A line feed may follow in the next chunk.
    else if ¬eof ∧ unit = carriageReturn then .ok (f, frames, line ++ [unit])
    else do
      let (f, more) ← f.consumeLine limits line
      return (f, frames ++ more, [])
  | unit :: next :: rest =>
    if unit ≠ carriageReturn ∧ unit ≠ lineFeed then drainLines limits eof f frames (line ++ [unit]) (next :: rest)
    else do
      let (f, more) ← f.consumeLine limits line
      if unit = carriageReturn ∧ next = lineFeed then drainLines limits eof f (frames ++ more) [] rest
      else drainLines limits eof f (frames ++ more) [] (next :: rest)

end SseFields

namespace IncrementalSseParser

variable {decoder : TextDecoder}

def new (decoder : TextDecoder) (limits : SseLimits) : IncrementalSseParser decoder where
  limits
  decoder := decoder.start
  buffer := []
  fields := .empty
  finished := false

def drain (p : IncrementalSseParser decoder) (eof : Bool) :
    Except SseError (IncrementalSseParser decoder × List ServerSentEventFrame) := do
  let (fields, frames, buffer) ← p.fields.drainLines p.limits eof [] [] p.buffer
  if p.limits.maxLineLength < buffer.length then .error .lineTooLong
  else if eof then
    let (fields, last) := fields.dispatch
    .ok ({ p with fields, buffer := [] }, frames ++ last)
  else .ok ({ p with fields, buffer }, frames)

def push (p : IncrementalSseParser decoder) (chunk : List UInt8) :
    Except SseError (IncrementalSseParser decoder × List ServerSentEventFrame) :=
  if p.finished then .error .finished
  else
    match decoder.decode p.decoder chunk with
    | none => .error .malformed
    | some (state, text) => { p with decoder := state, buffer := p.buffer ++ text }.drain false

def finish (p : IncrementalSseParser decoder) :
    Except SseError (IncrementalSseParser decoder × List ServerSentEventFrame) :=
  if p.finished then .ok (p, [])
  else if decoder.ends p.decoder then { p with finished := true }.drain true
  else .error .malformed

/-- `parseServerSentEvents`: the frames that come out, and whether an error ends them. -/
def parse (p : IncrementalSseParser decoder) : List (List UInt8) → List ServerSentEventFrame × Bool
  | [] =>
    match p.finish with
    | .ok (_, frames) => (frames, false)
    | .error _ => ([], true)
  | chunk :: rest =>
    match p.push chunk with
    | .ok (p, frames) => (frames ++ (p.parse rest).1, (p.parse rest).2)
    | .error _ => ([], true)

end IncrementalSseParser

end Handrail.Transports

import Handrail.Js.JsonLine
import Handrail.Transports.SseChunks

/-!
# The stream of the application gateway

What `sse` of `application-gateway.ts` enqueues is read back by the client's parser, however the bytes are cut.
-/

namespace Handrail.Transports
open Js

/-- The `type` of a `GatewayStreamMessage`. -/
inductive GatewayMessageType where
  | started
  | event
  | terminal
deriving DecidableEq

def GatewayMessageType.text : GatewayMessageType → JsString
  | .started => js "started"
  | .event => js "event"
  | .terminal => js "terminal"

/-- What `sse` enqueues: a message with the id it is sent with, or the comment of the heartbeat. -/
inductive GatewayOutput where
  | message (type : GatewayMessageType) (body : Json) (id : Option JsString)
  | keepalive

/-- `id ? id : undefined` -/
def sentId (id : Option JsString) : Option JsString := id.filter fun id => decide (id.units ≠ [])

namespace GatewayOutput

def text : GatewayOutput → JsString
  | .message type body id =>
    (sentId id).elim (js "") (fun id => js "id: " ++ id ++ js "\n") ++ js "event: " ++ type.text ++ js "\ndata: " ++
      stringify body ++ js "\n\n"
  | .keepalive => js ": keepalive\n\n"

def frame : GatewayOutput → Option ServerSentEventFrame
  | .message type body id => some ⟨some type.text, sentId id, some (stringify body)⟩
  | .keepalive => none

def lines : GatewayOutput → List (List UInt16)
  | .message type body id =>
    ((sentId id).map fun id => (js "id: ").units ++ id.units).toList ++
      [(js "event: ").units ++ type.text.units, (js "data: ").units ++ textUnits body, []]
  | .keepalive => [(js ": keepalive").units, []]

/-- The output is within the limits of the parser, and its id is one line without a null character. -/
structure Sendable (limits : SseLimits) (output : GatewayOutput) : Prop where
  fits : ∀ line ∈ output.lines, line.length ≤ limits.maxLineLength
  data : ∀ type body id, output = .message type body id → (textUnits body).length ≤ limits.maxDataLength
  id : ∀ type body id, output = .message type body (some id) → IsLine carriageReturn lineFeed id.units ∧ 0 ∉ id.units

theorem units_text (output : GatewayOutput) : output.text.units = writeLines lineFeed output.lines := by
  cases output with
  | keepalive => decide
  | message type body id =>
    have data : (js "\ndata: ").units = lineFeed :: (js "data: ").units := by decide
    have end_ : (js "\n\n").units = [lineFeed, lineFeed] := by decide
    have one : (js "\n").units = [lineFeed] := by decide
    have nothing : (js "").units = [] := by decide
    cases sent : sentId id with
    | none => simp [text, lines, sent, writeLines, stringify, data, end_, nothing]
    | some id' => simp [text, lines, sent, writeLines, stringify, data, end_, one]

variable {limits : SseLimits} {output : GatewayOutput}

theorem Sendable.plain (sendable : output.Sendable limits) :
    ∀ line ∈ output.lines, IsLine carriageReturn lineFeed line := by
  have visible {xs ys : List UInt16} (name : Visible xs) (value : IsLine carriageReturn lineFeed ys) :
      IsLine carriageReturn lineFeed (xs ++ ys) := by
    have line := name.isLine
    exact ⟨fun member => (List.mem_append.mp member).elim line.1 value.1,
      fun member => (List.mem_append.mp member).elim line.2 value.2⟩
  intro line member
  cases output with
  | keepalive =>
    rcases List.mem_cons.mp member with rfl | member
    · exact Visible.isLine (units_pass (by decide))
    · cases List.mem_singleton.mp member
      exact isLine_nil
  | message type body id =>
    rcases List.mem_append.mp member with named | member
    · obtain ⟨id', sent, rfl⟩ := Option.map_eq_some_iff.mp (Option.mem_toList.mp named)
      obtain ⟨rfl, -⟩ := Option.filter_eq_some_iff.mp sent
      exact visible (units_pass (by decide)) (sendable.id type body id' rfl).1
    · simp only [List.mem_cons, List.not_mem_nil, or_false] at member
      rcases member with rfl | rfl | rfl
      · refine visible (units_pass (by decide)) ?_
        cases type <;> exact Visible.isLine (units_pass (by decide))
      · exact visible (units_pass (by decide)) (visible_textUnits body).isLine
      · exact isLine_nil

/-! ### Reading the lines -/

open SseFields

theorem separate_field {s n : String} {v : List UInt16} (written : (js s).units = (js n).units ++ [colon, space])
    (plain : colon ∉ (js n).units) (nonempty : (js n).units ≠ []) :
    separate ((js s).units ++ v) = (js n, ⟨v⟩) ∧ (js s).units ++ v ≠ [] ∧
      ((js s).units ++ v).head? ≠ some colon := by
  rw [written]
  have passes : ∀ c ∈ (js n).units, decide (c ≠ colon) = true := by
    intro c member
    exact decide_eq_true fun same => plain (same ▸ member)
  refine ⟨?_, by simp, ?_⟩
  · unfold separate
    rw [List.append_assoc, List.takeWhile_append_of_pos passes, List.dropWhile_append_of_pos passes]
    simp
  · obtain ⟨c, rest, split⟩ := List.exists_cons_of_ne_nil nonempty
    rw [split]
    intro same
    exact plain (split ▸ Option.some.inj same ▸ List.mem_cons_self)

variable {value : List UInt16} {f : SseFields}

theorem consume_event (fits : ((js "event: ").units ++ value).length ≤ limits.maxLineLength) :
    f.consumeLine limits ((js "event: ").units ++ value) =
      .ok ({ f with event := some ⟨value⟩, recognizedField := true }, []) := by
  obtain ⟨named, nonempty, uncommented⟩ :=
    separate_field (s := "event: ") (n := "event") (v := value) (by decide) (by decide) (by decide)
  rw [consumeLine, if_neg (not_lt.mpr fits), if_neg nonempty, if_neg uncommented, named]
  dsimp only
  rw [if_pos rfl]

theorem consume_id (fits : ((js "id: ").units ++ value).length ≤ limits.maxLineLength) (plain : 0 ∉ value) :
    f.consumeLine limits ((js "id: ").units ++ value) =
      .ok ({ f with id := some ⟨value⟩, recognizedField := true }, []) := by
  obtain ⟨named, nonempty, uncommented⟩ :=
    separate_field (s := "id: ") (n := "id") (v := value) (by decide) (by decide) (by decide)
  rw [consumeLine, if_neg (not_lt.mpr fits), if_neg nonempty, if_neg uncommented, named]
  dsimp only
  rw [if_neg (by decide), if_pos rfl, if_neg plain]

theorem consume_data (fits : ((js "data: ").units ++ value).length ≤ limits.maxLineLength)
    (room : f.dataLength + value.length + f.data.length ≤ limits.maxDataLength) :
    f.consumeLine limits ((js "data: ").units ++ value) =
      .ok ({ f with data := f.data ++ [⟨value⟩], dataLength := f.dataLength + value.length, recognizedField := true }, []) := by
  obtain ⟨named, nonempty, uncommented⟩ :=
    separate_field (s := "data: ") (n := "data") (v := value) (by decide) (by decide) (by decide)
  rw [consumeLine, if_neg (not_lt.mpr fits), if_neg nonempty, if_neg uncommented, named]
  dsimp only
  rw [if_neg (by decide), if_neg (by decide), if_pos rfl]
  exact if_neg (not_lt.mpr room)

/-- The lines after the id complete a frame with whatever id was read before. -/
theorem read_body {type : GatewayMessageType} {body : Json} (noData : f.data = []) (unused : f.dataLength = 0)
    (event : ((js "event: ").units ++ type.text.units).length ≤ limits.maxLineLength)
    (data : ((js "data: ").units ++ textUnits body).length ≤ limits.maxLineLength)
    (room : (textUnits body).length ≤ limits.maxDataLength) :
    f.readLines limits [(js "event: ").units ++ type.text.units, (js "data: ").units ++ textUnits body, []] =
      .ok (.empty, [⟨some type.text, f.id, some (stringify body)⟩]) := by
  have ends (g : SseFields) : g.consumeLine limits [] = .ok g.dispatch := by simp [consumeLine]
  have fits : f.dataLength + (textUnits body).length + f.data.length ≤ limits.maxDataLength := by
    rw [unused, noData]
    simpa using room
  have later := consume_data (f := { f with event := some ⟨type.text.units⟩, recognizedField := true }) data fits
  rw [readLines, consume_event event]
  simp only [bind, Except.bind, pure, Except.pure, readLines]
  rw [later]
  simp only [ends, noData]
  rfl

theorem Sendable.read (sendable : output.Sendable limits) :
    SseFields.empty.readLines limits output.lines = .ok (.empty, output.frame.toList) := by
  have fits := sendable.fits
  cases output with
  | keepalive =>
    have short := fits _ List.mem_cons_self
    have comment : (js ": keepalive").units.head? = some colon := by decide
    have nonempty : (js ": keepalive").units ≠ [] := by decide
    simp only [lines, readLines, consumeLine, if_neg (not_lt.mpr short), if_neg nonempty, if_pos comment]
    rfl
  | message type body id =>
    have event := fits ((js "event: ").units ++ type.text.units) (by simp [lines])
    have data := fits ((js "data: ").units ++ textUnits body) (by simp [lines])
    have room := sendable.data type body id rfl
    cases sent : sentId id with
    | none =>
      have written : lines (.message type body id) =
          [(js "event: ").units ++ type.text.units, (js "data: ").units ++ textUnits body, []] := by simp [lines, sent]
      rw [written, read_body rfl rfl event data room, frame, sent]
      rfl
    | some id' =>
      obtain ⟨rfl, -⟩ := Option.filter_eq_some_iff.mp sent
      have plain := (sendable.id type body id' rfl).2
      have named := fits ((js "id: ").units ++ id'.units) (by simp [lines, sent])
      have written : lines (.message type body (some id')) =
          [(js "id: ").units ++ id'.units] ++
            [(js "event: ").units ++ type.text.units, (js "data: ").units ++ textUnits body, []] := by
        simp [lines, sent]
      have first : SseFields.empty.readLines limits [(js "id: ").units ++ id'.units] =
          .ok ({ SseFields.empty with id := some ⟨id'.units⟩, recognizedField := true }, []) := by
        rw [readLines, consume_id named plain]
        rfl
      rw [written, readLines_append, first]
      simp only [bind, Except.bind, pure, Except.pure]
      rw [read_body rfl rfl event data room, frame, sent]
      rfl

def allLines (outputs : List GatewayOutput) : List (List UInt16) := outputs.flatMap lines

theorem units_allLines (outputs : List GatewayOutput) :
    (outputs.flatMap fun output => output.text.units) = writeLines lineFeed (allLines outputs) := by
  induction outputs with
  | nil => rfl
  | cons output rest ih =>
    have split : allLines (output :: rest) = output.lines ++ allLines rest := List.flatMap_cons
    rw [List.flatMap_cons, ih, units_text, split, writeLines, writeLines, writeLines, List.flatMap_append]

variable {outputs : List GatewayOutput}

theorem read_allLines (sendable : ∀ output ∈ outputs, output.Sendable limits) :
    SseFields.empty.readLines limits (allLines outputs) = .ok (.empty, outputs.filterMap frame) := by
  induction outputs with
  | nil => rfl
  | cons output rest ih =>
    rw [List.forall_mem_cons] at sendable
    rw [allLines, List.flatMap_cons, ← allLines, readLines_append, sendable.1.read]
    simp only [bind, Except.bind, pure, Except.pure, ih sendable.2]
    cases shown : output.frame with
    | none => rw [List.filterMap_cons_none shown, Option.toList_none, List.nil_append]
    | some _ => rw [List.filterMap_cons_some shown, Option.toList_some, List.singleton_append]

theorem read_take {lines : List (List UInt16)} {f g : SseFields} {frames : List ServerSentEventFrame}
    (read : f.readLines limits lines = .ok (g, frames)) (count : Nat) :
    ∃ result, f.readLines limits (lines.take count) = .ok result := by
  rw [← List.take_append_drop count lines, readLines_append] at read
  cases first : f.readLines limits (lines.take count) with
  | error _ =>
    rw [first] at read
    cases read
  | ok result => exact ⟨result, rfl⟩

theorem plain_allLines (sendable : ∀ output ∈ outputs, output.Sendable limits) {line : List UInt16}
    (member : line ∈ allLines outputs) :
    IsLine carriageReturn lineFeed line ∧ line.length ≤ limits.maxLineLength := by
  obtain ⟨output, sent, within⟩ := List.mem_flatMap.mp member
  exact ⟨(sendable output sent).plain line within, (sendable output sent).fits line within⟩

variable {decoder : TextDecoder} {b : List UInt8} {s : decoder.State}

theorem reads_throughout (sendable : ∀ output ∈ outputs, output.Sendable limits)
    (decodes : decoder.decode decoder.start b = some (s, outputs.flatMap fun output => output.text.units)) :
    ReadsThroughout decoder limits b := by
  rintro part ⟨rest, rfl⟩ unread
  rw [decoder.decode_append, Option.bind_eq_some_iff] at decodes
  obtain ⟨⟨held, text⟩, decoded, later⟩ := decodes
  obtain ⟨⟨after, more⟩, -, same⟩ := Option.map_eq_some_iff.mp later
  have whole : text ++ more = writeLines lineFeed (allLines outputs) := by
    rw [← units_allLines]
    exact (Prod.mk.inj same).2
  obtain ⟨count, tail, rfl, where_⟩ := prefix_writeLines ⟨more, whole⟩
  have inside : IsLine carriageReturn lineFeed tail ∧ tail.length ≤ limits.maxLineLength := by
    rcases where_ with rfl | ⟨line, member, begins⟩
    · exact ⟨isLine_nil, Nat.zero_le _⟩
    · obtain ⟨plain, fits⟩ := plain_allLines sendable member
      exact ⟨⟨fun inside => plain.1 (begins.subset inside), fun inside => plain.2 (begins.subset inside)⟩,
        begins.length_le.trans fits⟩
  have cut : cutLines carriageReturn lineFeed [] (writeLines lineFeed ((allLines outputs).take count) ++ tail) =
      ((allLines outputs).take count, tail) :=
    cutLines_writeLines (by decide) (fun line member => (plain_allLines sendable (List.mem_of_mem_take member)).1) inside.1
  obtain ⟨result, read⟩ := read_take (read_allLines sendable) count
  simp [readBytes, decoded, cut, read, Except.toOption, not_lt.mpr inside.2] at unread

/-- However the bytes of the stream of a gateway are cut into chunks, a client reads one frame for each of its messages, in
their order, with the type, the id and the JSON text of the message, and nothing for a heartbeat. -/
theorem gateway_frames (sendable : ∀ output ∈ outputs, output.Sendable limits)
    (decodes : decoder.decode decoder.start b = some (s, outputs.flatMap fun output => output.text.units))
    (ends : decoder.ends s = true) {chunks : List (List UInt8)} (cut : chunks.flatten = b) :
    (IncrementalSseParser.new decoder limits).parse chunks = (outputs.filterMap frame, false) := by
  have throughout := reads_throughout sendable decodes
  have lines : cutLines carriageReturn lineFeed [] (outputs.flatMap fun output => output.text.units) =
      (allLines outputs, []) := by
    rw [units_allLines, ← List.append_nil (writeLines lineFeed (allLines outputs))]
    exact cutLines_writeLines (by decide) (fun line member => (plain_allLines sendable member).1) isLine_nil
  have whole : readBytes decoder limits b = some (⟨limits, s, [], .empty, false⟩, outputs.filterMap frame) := by
    simp [readBytes, decodes, lines, read_allLines sendable, Except.toOption]
  rw [← cut] at throughout whole
  obtain ⟨frames, errs⟩ := IncrementalSseParser.parse_throughout chunks IncrementalSseParser.readBytes_nil throughout whole
  have finished : (IncrementalSseParser.mk limits s [] .empty false : IncrementalSseParser decoder).parse [] = ([], false) := by
    simp [IncrementalSseParser.parse, IncrementalSseParser.finish, IncrementalSseParser.drain, ends, drainLines,
      bind, Except.bind]
    rfl
  rw [finished] at frames errs
  rw [List.append_nil] at frames
  exact Prod.ext frames errs

/-! ### A message and a heartbeat -/

def sampleStreamLimits : SseLimits := ⟨64, 64, by decide, by decide⟩

def sampleOutputs : List GatewayOutput :=
  [.message .event (.obj [(js "type", .str (js "event")), (js "event", .str (js "a\nb"))]) (some (js "7")), .keepalive]

def sampleStream : List UInt8 := sampleOutputs.flatMap fun output => output.text.units.map UInt16.toUInt8

theorem sampleOutputs_sendable : ∀ output ∈ sampleOutputs, output.Sendable sampleStreamLimits := by
  intro output member
  rcases List.mem_cons.mp member with rfl | member
  · refine ⟨by decide +kernel, ?_, ?_⟩
    · intro type body id same
      cases same
      decide +kernel
    · intro type body id same
      cases same
      exact ⟨⟨by decide, by decide⟩, by decide⟩
  · cases List.mem_singleton.mp member
    refine ⟨by decide +kernel, ?_, ?_⟩
    · intro type body id same
      cases same
    · intro type body id same
      cases same

theorem sampleStream_decodes : IncrementalSseParser.asciiDecoder.decode IncrementalSseParser.asciiDecoder.start sampleStream =
    some ((), sampleOutputs.flatMap fun output => output.text.units) := by
  have plain : sampleStream.all (· < 0x80) = true := by decide +kernel
  have text : sampleStream.map UInt8.toUInt16 = sampleOutputs.flatMap fun output => output.text.units := by decide +kernel
  rw [← text]
  exact if_pos (e := none) plain

/-- A stream that is cut inside of an id and inside of the heartbeat. -/
theorem gateway_frames_cut :
    (IncrementalSseParser.new IncrementalSseParser.asciiDecoder sampleStreamLimits).parse
        [sampleStream.take 2, (sampleStream.drop 2).take 60, sampleStream.drop 62] =
      ([⟨some (js "event"), some (js "7"), some (js "\x7b\"type\":\"event\",\"event\":\"a\\nb\"\x7d")⟩], false) :=
  (gateway_frames sampleOutputs_sendable sampleStream_decodes rfl (by decide +kernel)).trans (by decide +kernel)

end GatewayOutput
end Handrail.Transports

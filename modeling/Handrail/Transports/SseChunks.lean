import Handrail.Transports.Sse

/-!
# Chunks of a server-sent stream

What the parser makes of the chunks is what a reading of all the bytes so far makes of their lines. The chunks matter only
where a chunk is refused that would have been read with the next one, or with fewer before it.
-/

namespace Handrail.Transports
open Js

namespace SseFields

def readLines (limits : SseLimits) (f : SseFields) :
    List (List UInt16) → Except SseError (SseFields × List ServerSentEventFrame)
  | [] => .ok (f, [])
  | line :: rest => do
    let (f, frames) ← f.consumeLine limits line
    let (f, more) ← f.readLines limits rest
    return (f, frames ++ more)

variable {limits : SseLimits}

theorem readLines_append (f : SseFields) (first second : List (List UInt16)) :
    f.readLines limits (first ++ second) = do
      let (f, frames) ← f.readLines limits first
      let (f, more) ← f.readLines limits second
      return (f, frames ++ more) := by
  induction first generalizing f with
  | nil =>
    rw [List.nil_append, readLines]
    simp only [bind, Except.bind, pure, Except.pure]
    cases f.readLines limits second with
    | error _ => rfl
    | ok result => rfl
  | cons line rest ih =>
    rw [List.cons_append, readLines, readLines]
    cases consumed : f.consumeLine limits line with
    | error _ => rfl
    | ok result =>
      obtain ⟨f, frames⟩ := result
      simp only [bind, Except.bind, pure, Except.pure, ih]
      cases before : f.readLines limits rest with
      | error _ => rfl
      | ok result =>
        obtain ⟨f, more⟩ := result
        dsimp only
        cases after : f.readLines limits second with
        | error _ => rfl
        | ok result => simp only [List.append_assoc]

theorem drainLines_eq (f : SseFields) (frames : List ServerSentEventFrame) (line text : List UInt16) :
    f.drainLines limits false frames line text =
      (f.readLines limits (cutLines carriageReturn lineFeed line text).1).map fun result =>
        (result.1, frames ++ result.2, (cutLines carriageReturn lineFeed line text).2) := by
  -- A line that has ended is consumed, and the loop goes on with what it leaves.
  have first (f : SseFields) (frames : List ServerSentEventFrame) (line : List UInt16)
      (others : List (List UInt16) × List UInt16)
      (goOn : SseFields × List ServerSentEventFrame → Except SseError (SseFields × List ServerSentEventFrame × List UInt16))
      (later : ∀ f more, goOn (f, more) =
        (f.readLines limits others.1).map fun result => (result.1, frames ++ more ++ result.2, others.2)) :
      (f.consumeLine limits line).bind goOn =
      (f.readLines limits (addLine line others).1).map fun result =>
        (result.1, frames ++ result.2, (addLine line others).2) := by
    simp only [addLine, readLines, bind, Except.bind, pure, Except.pure]
    cases f.consumeLine limits line with
    | error _ => rfl
    | ok result =>
      obtain ⟨f, more⟩ := result
      dsimp only
      rw [later]
      cases f.readLines limits others.1 with
      | error _ => rfl
      | ok rest => simp only [Except.map, List.append_assoc]
  induction line, text using cutLines.induct carriageReturn lineFeed generalizing f frames with
  | case1 line => simp [drainLines, cutLines, readLines, Except.map]
  | case2 line unit ends =>
    rw [cutLines, if_pos ends, drainLines, if_neg (by simp [ends.1]), if_neg (by simp [ends.2])]
    refine first f frames line ([], []) _ fun f more => ?_
    simp [readLines, Except.map, pure, Except.pure]
  | case3 line unit goes =>
    rw [cutLines, if_neg goes, drainLines]
    by_cases plain : unit ≠ carriageReturn ∧ unit ≠ lineFeed
    · simp [plain, readLines, Except.map]
    · have held : unit = carriageReturn := by
        by_contra other
        exact goes ⟨by_contra fun notLf => plain ⟨other, notLf⟩, other⟩
      simp [held, readLines, Except.map]
  | case4 line rest ih =>
    rw [cutLines, if_pos rfl, if_pos rfl, drainLines, if_neg (by simp)]
    refine first f frames line _ _ fun f more => ?_
    dsimp only
    rw [if_pos ⟨rfl, rfl⟩]
    exact ih f (frames ++ more)
  | case5 line next rest other ih =>
    rw [cutLines, if_pos rfl, if_neg other, drainLines, if_neg (by simp)]
    refine first f frames line _ _ fun f more => ?_
    dsimp only
    rw [if_neg fun both => other both.2]
    exact ih f (frames ++ more)
  | case6 line next rest notCr ih =>
    rw [cutLines, if_neg notCr, if_pos rfl, drainLines, if_neg (by simp)]
    refine first f frames line _ _ fun f more => ?_
    dsimp only
    rw [if_neg fun both => notCr both.1]
    exact ih f (frames ++ more)
  | case7 line unit next rest notCr notLf ih =>
    rw [cutLines, if_neg notCr, if_neg notLf, drainLines, if_pos ⟨notCr, notLf⟩]
    exact ih f frames

end SseFields

variable {decoder : TextDecoder} {limits : SseLimits}

/-- The bytes read as a whole: they decode, the lines that have ended keep the rules, and the rest is within the limit. -/
def readBytes (decoder : TextDecoder) (limits : SseLimits) (bytes : List UInt8) :
    Option (IncrementalSseParser decoder × List ServerSentEventFrame) :=
  (decoder.decode decoder.start bytes).bind fun (state, text) =>
    ((SseFields.empty.readLines limits (cutLines carriageReturn lineFeed [] text).1).toOption).bind fun (fields, frames) =>
      let rest := (cutLines carriageReturn lineFeed [] text).2
      if limits.maxLineLength < rest.length then none else some (⟨limits, state, rest, fields, false⟩, frames)

namespace IncrementalSseParser

theorem readBytes_nil : readBytes decoder limits [] = some (new decoder limits, []) := by
  simp [readBytes, decoder.decode_nil, cutLines, SseFields.readLines, Except.toOption, new]

variable {frames : List ServerSentEventFrame}

theorem push_read {bytes : List UInt8} {p : IncrementalSseParser decoder}
    (read : readBytes decoder limits bytes = some (p, frames)) (chunk : List UInt8) :
    readBytes decoder limits (bytes ++ chunk) = ((p.push chunk).toOption).map fun result => (result.1, frames ++ result.2) := by
  simp only [readBytes, Option.bind_eq_some_iff] at read
  obtain ⟨⟨state, text⟩, decoded, ⟨fields, before⟩, lines, within⟩ := read
  dsimp only at lines within
  split at within
  · cases within
  · obtain ⟨rfl, rfl⟩ := Prod.mk.inj (Option.some.inj within)
    have kept : SseFields.empty.readLines limits (cutLines carriageReturn lineFeed [] text).1 = .ok (fields, before) := by
      cases whole : SseFields.empty.readLines limits (cutLines carriageReturn lineFeed [] text).1 with
      | error _ =>
        rw [whole] at lines
        cases lines
      | ok result =>
        rw [whole] at lines
        exact congrArg Except.ok (Option.some.inj lines)
    rw [readBytes, decoder.decode_append, decoded, push, if_neg Bool.false_ne_true]
    dsimp only [Option.bind_some]
    cases decoder.decode state chunk with
    | none => rfl
    | some result =>
      obtain ⟨later, more⟩ := result
      dsimp only [Option.map_some, Option.bind_some]
      rw [cutLines_append isLine_nil, SseFields.readLines_append, kept, drain, SseFields.drainLines_eq]
      simp only [bind, Except.bind, pure, Except.pure]
      cases fields.readLines limits (cutLines carriageReturn lineFeed []
        ((cutLines carriageReturn lineFeed [] text).2 ++ more)).1 with
      | error _ => rfl
      | ok result =>
        obtain ⟨fields, after⟩ := result
        simp only [Except.map, Except.toOption, Option.bind_some, List.nil_append, Bool.false_eq_true, ↓reduceIte]
        split
        · rfl
        · rfl

theorem push_ok {bytes chunk : List UInt8} {p : IncrementalSseParser decoder}
    {result : IncrementalSseParser decoder × List ServerSentEventFrame}
    (read : readBytes decoder limits bytes = some (p, frames)) (pushed : p.push chunk = .ok result) :
    readBytes decoder limits (bytes ++ chunk) = some (result.1, frames ++ result.2) := by
  rw [push_read read, pushed]
  rfl

theorem push_error {bytes chunk : List UInt8} {p : IncrementalSseParser decoder}
    {error : SseError} (read : readBytes decoder limits bytes = some (p, frames)) (refused : p.push chunk = .error error) :
    readBytes decoder limits (bytes ++ chunk) = none := by
  rw [push_read read, refused]
  rfl

end IncrementalSseParser

/-! ### Parts of the bytes -/

def ReadsThroughout (decoder : TextDecoder) (limits : SseLimits) (bytes : List UInt8) : Prop :=
  ∀ part, part <+: bytes → readBytes decoder limits part ≠ none

def CompletesNothing (decoder : TextDecoder) (limits : SseLimits) (bytes : List UInt8) : Prop :=
  ∀ part p frames, part <+: bytes → readBytes decoder limits part = some (p, frames) → frames = []

def Accepted (decoder : TextDecoder) (limits : SseLimits) (bytes : List UInt8) : Prop :=
  ∃ p frames ended, readBytes decoder limits bytes = some (p, frames) ∧ p.finish = .ok ended

namespace IncrementalSseParser

theorem parse_throughout {bytes : List UInt8} {p q : IncrementalSseParser decoder} {frames all : List ServerSentEventFrame}
    (chunks : List (List UInt8)) (read : readBytes decoder limits bytes = some (p, frames))
    (throughout : ReadsThroughout decoder limits (bytes ++ chunks.flatten))
    (whole : readBytes decoder limits (bytes ++ chunks.flatten) = some (q, all)) :
    frames ++ (p.parse chunks).1 = all ++ (q.parse []).1 ∧ (p.parse chunks).2 = (q.parse []).2 := by
  induction chunks generalizing bytes p frames with
  | nil =>
    rw [List.flatten_nil, List.append_nil, read] at whole
    obtain ⟨rfl, rfl⟩ := Prod.mk.inj (Option.some.inj whole)
    exact ⟨rfl, rfl⟩
  | cons chunk rest ih =>
    rw [List.flatten_cons, ← List.append_assoc] at throughout whole
    cases pushed : p.push chunk with
    | error _ => exact (throughout _ (List.prefix_append ..) (push_error read pushed)).elim
    | ok result =>
      obtain ⟨later, more⟩ := result
      have next := ih (push_ok read pushed) throughout whole
      simp only [parse, pushed]
      rw [← List.append_assoc]
      exact next

theorem parse_refused {bytes : List UInt8} {p : IncrementalSseParser decoder}
    (chunks : List (List UInt8)) (read : readBytes decoder limits bytes = some (p, frames))
    (refused : ¬Accepted decoder limits (bytes ++ chunks.flatten))
    (nothing : CompletesNothing decoder limits (bytes ++ chunks.flatten)) : p.parse chunks = ([], true) := by
  induction chunks generalizing bytes p frames with
  | nil =>
    rw [List.flatten_nil, List.append_nil] at refused
    cases finished : p.finish with
    | error _ => simp only [parse, finished]
    | ok ended => exact (refused ⟨p, frames, ended, read, finished⟩).elim
  | cons chunk rest ih =>
    rw [List.flatten_cons, ← List.append_assoc] at refused nothing
    cases pushed : p.push chunk with
    | error _ => simp only [parse, pushed]
    | ok result =>
      obtain ⟨later, more⟩ := result
      have together := nothing _ _ _ (List.prefix_append ..) (push_ok read pushed)
      obtain ⟨-, rfl⟩ := List.append_eq_nil_iff.mp together
      have next := ih (push_ok read pushed) refused nothing
      simp only [parse, pushed, next, List.nil_append]

theorem frames_prefix {part bytes : List UInt8} {p q : IncrementalSseParser decoder} {frames all : List ServerSentEventFrame}
    (begins : part <+: bytes) (read : readBytes decoder limits part = some (p, frames))
    (whole : readBytes decoder limits bytes = some (q, all)) : frames <+: all := by
  obtain ⟨chunk, rfl⟩ := begins
  rw [push_read read, Option.map_eq_some_iff] at whole
  obtain ⟨result, -, same⟩ := whole
  exact ⟨result.2, (Prod.mk.inj same).2⟩

theorem parse_read {part : List UInt8} {p : IncrementalSseParser decoder}
    (read : readBytes decoder limits part = some (p, frames)) (rest : List (List UInt8)) :
    (new decoder limits).parse (part :: rest) = (frames ++ (p.parse rest).1, (p.parse rest).2) := by
  cases pushed : (new decoder limits).push part with
  | error _ =>
    have unread := push_error readBytes_nil pushed
    rw [List.nil_append, read] at unread
    cases unread
  | ok result =>
    have first := push_ok readBytes_nil pushed
    rw [List.nil_append, read, List.nil_append] at first
    obtain ⟨rfl, rfl⟩ := Prod.mk.inj (Option.some.inj first)
    rw [parse, pushed]

theorem parse_unread {part : List UInt8} (unread : readBytes decoder limits part = none) (rest : List (List UInt8)) :
    (new decoder limits).parse (part :: rest) = ([], true) := by
  cases pushed : (new decoder limits).push part with
  | error _ => rw [parse, pushed]
  | ok result =>
    have read := push_ok readBytes_nil pushed
    rw [List.nil_append, unread] at read
    cases read

/-- When the chunks do not matter and the bytes cannot be read, no part completes a frame: it would come out of a chunk
of its own. -/
theorem nothing_of_unread {bytes : List UInt8} (unread : readBytes decoder limits bytes = none)
    (same : ∀ first second : List (List UInt8), first.flatten = bytes → second.flatten = bytes →
      (new decoder limits).parse first = (new decoder limits).parse second) :
    CompletesNothing decoder limits bytes := by
  intro part p frames begins read
  obtain ⟨rest, together⟩ := begins
  have split := same [bytes] [part, rest] (by simp) (by simp [together])
  rw [parse_unread unread, parse_read read] at split
  exact (List.append_eq_nil_iff.mp (Prod.mk.inj split).1.symm).1

/-- When the chunks do not matter and some part cannot be read, the whole bytes yield nothing: a chunk of that part would
lose all frames. -/
theorem silent_of_part {bytes part : List UInt8} {q : IncrementalSseParser decoder} {all : List ServerSentEventFrame}
    (whole : readBytes decoder limits bytes = some (q, all)) (begins : part <+: bytes)
    (unread : readBytes decoder limits part = none)
    (same : ∀ first second : List (List UInt8), first.flatten = bytes → second.flatten = bytes →
      (new decoder limits).parse first = (new decoder limits).parse second) :
    all = [] ∧ (q.parse []).2 = true := by
  obtain ⟨rest, together⟩ := begins
  have split := same [bytes] [part, rest] (by simp) (by simp [together])
  rw [parse_read whole, parse_unread unread] at split
  obtain ⟨frames, errs⟩ := Prod.mk.inj split
  exact ⟨(List.append_eq_nil_iff.mp frames).1, errs⟩

/-- What the parser makes of a sequence of bytes does not depend on their chunks exactly when every part of it from the
beginning can be read on its own, or the bytes are refused and no part that can be read completes a frame. -/
theorem chunks_independent (decoder : TextDecoder) (limits : SseLimits) (bytes : List UInt8) :
    (∀ first second : List (List UInt8), first.flatten = bytes → second.flatten = bytes →
      (new decoder limits).parse first = (new decoder limits).parse second) ↔
    ReadsThroughout decoder limits bytes ∨
      (¬Accepted decoder limits bytes ∧ CompletesNothing decoder limits bytes) := by
  constructor
  · intro same
    cases whole : readBytes decoder limits bytes with
    | none =>
      refine .inr ⟨?_, nothing_of_unread whole same⟩
      rintro ⟨p, frames, ended, read, -⟩
      rw [whole] at read
      cases read
    | some result =>
      obtain ⟨q, all⟩ := result
      by_cases throughout : ReadsThroughout decoder limits bytes
      · exact .inl throughout
      · unfold ReadsThroughout at throughout
        push Not at throughout
        obtain ⟨part, begins, unread⟩ := throughout
        obtain ⟨silent, errs⟩ := silent_of_part whole begins unread same
        refine .inr ⟨?_, fun part p frames begins read => ?_⟩
        · rintro ⟨p, frames, ended, read, finished⟩
          rw [whole] at read
          obtain ⟨rfl, rfl⟩ := Prod.mk.inj (Option.some.inj read)
          rw [parse, finished] at errs
          cases errs
        · have within := frames_prefix begins read whole
          rw [silent] at within
          exact List.prefix_nil.mp within
  · intro condition first second one two
    rcases condition with throughout | ⟨refused, nothing⟩
    · cases whole : readBytes decoder limits bytes with
      | none => exact (throughout bytes (List.prefix_refl _) whole).elim
      | some result =>
        have reads (chunks : List (List UInt8)) (flat : chunks.flatten = bytes) :
            (new decoder limits).parse chunks = (result.2 ++ (result.1.parse []).1, (result.1.parse []).2) := by
          rw [← flat] at throughout whole
          obtain ⟨frames, errs⟩ := parse_throughout chunks readBytes_nil throughout whole
          exact Prod.ext frames errs
        rw [reads first one, reads second two]
    · have refuses (chunks : List (List UInt8)) (flat : chunks.flatten = bytes) :
          (new decoder limits).parse chunks = ([], true) := by
        rw [← flat] at refused nothing
        exact parse_refused chunks readBytes_nil refused nothing
      rw [refuses first one, refuses second two]

/-! ### A line of the greatest length -/

def asciiDecoder : TextDecoder where
  State := Unit
  start := ()
  decode _ bytes := if bytes.all (· < 0x80) then some ((), bytes.map UInt8.toUInt16) else none
  ends _ := true
  decode_nil _ := rfl
  decode_append s first second := by
    by_cases one : first.all (· < 0x80) = true
    · by_cases two : second.all (· < 0x80) = true
      · simp [one, two]
      · simp [one, two]
    · simp [one]

def sampleSseLimits : SseLimits := ⟨4, 100, by decide, by decide⟩

/-- `id:x`, with a carriage return and a line feed, and an empty line. -/
def sampleFrameBytes : List UInt8 := [0x69, 0x64, 0x3a, 0x78, 0x0d, 0x0a, 0x0d, 0x0a]

/-- A line of the greatest length is refused when its carriage return is the last of a chunk. -/
theorem chunks_matter : ∃ (decoder : TextDecoder) (limits : SseLimits) (first second : List (List UInt8)),
    first.flatten = second.flatten ∧
    (new decoder limits).parse first = ([⟨none, some (js "x"), none⟩], false) ∧
    (new decoder limits).parse second = ([], true) :=
  ⟨asciiDecoder, sampleSseLimits, [sampleFrameBytes], [sampleFrameBytes.take 5, sampleFrameBytes.drop 5], by decide +kernel,
    by decide +kernel, by decide +kernel⟩

end IncrementalSseParser

end Handrail.Transports

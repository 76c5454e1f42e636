import Handrail.Protocol.StreamEvents

/-!
# The rules of a response stream

What a frame owes to the frames before it. A list of frames is a whole response exactly when every
frame fits those before it and the last one, and no other, is terminal; without a terminal frame it can
still be continued to a whole response.
-/

namespace Handrail.Protocol
open Js Conversation

/-! ### Rules on what comes before -/

section
variable {α : Type} {rule other : List α → α → Prop} {xs ys : List α}

def Everywhere (rule : List α → α → Prop) (xs : List α) : Prop :=
  ∀ before x after, xs = before ++ x :: after → rule before x

theorem everywhere_nil : Everywhere rule [] := by
  intro before x after split
  simp at split

theorem Everywhere.of_append (whole : Everywhere rule (xs ++ ys)) : Everywhere rule xs := by
  intro before x after split
  apply whole before x (after ++ ys)
  rw [split, List.append_assoc, List.cons_append]

theorem everywhere_snoc {x : α} : Everywhere rule (xs ++ [x]) ↔ Everywhere rule xs ∧ rule xs x := by
  constructor
  · intro whole
    exact ⟨whole.of_append, whole xs x [] rfl⟩
  · intro ⟨earlier, last⟩ before y after split
    rcases List.eq_nil_or_concat after with rfl | ⟨after, z, rfl⟩
    · obtain ⟨rfl, same⟩ := List.append_inj' split rfl
      obtain rfl := List.singleton_inj.mp same
      exact last
    · rw [List.concat_eq_append, ← List.cons_append, ← List.append_assoc] at split
      obtain ⟨rfl, -⟩ := List.append_inj' split rfl
      exact earlier before y after rfl

theorem Everywhere.imp (whole : Everywhere rule xs) (implies : ∀ before x, rule before x → other before x) :
    Everywhere other xs := by
  intro before x after split
  exact implies before x (whole before x after split)

theorem everywhere_and : Everywhere (fun before x => rule before x ∧ other before x) xs ↔
    Everywhere rule xs ∧ Everywhere other xs := by
  constructor
  · intro whole
    exact ⟨whole.imp fun _ _ both => both.1, whole.imp fun _ _ both => both.2⟩
  · intro ⟨left, right⟩ before x after split
    exact ⟨left before x after split, right before x after split⟩

end

/-! ### What the frames carry -/

def StreamEvent.usage? (event : StreamEvent) : Option Usage :=
  match event.body with
  | .usage usage => some usage
  | _ => none

def StreamEvent.toolCallId? (event : StreamEvent) : Option Identifier :=
  match event.body with
  | .toolCall toolCallId _ _ => some toolCallId
  | _ => none

def StreamEvent.batch? (event : StreamEvent) : Option CitationBatch :=
  match event.body with
  | .citationBatch batch => some batch
  | _ => none

def usages (events : List StreamEvent) : List Usage := events.filterMap StreamEvent.usage?

def toolCallIds (events : List StreamEvent) : List Identifier := events.filterMap StreamEvent.toolCallId?

def batches (events : List StreamEvent) : List CitationBatch := events.filterMap StreamEvent.batch?

def citations (events : List StreamEvent) : List Citation := (batches events).flatMap CitationBatch.citations

def BatchSource.fingerprint (source : BatchSource) : JsString × JsString :=
  (source.source.sourceId, stringify source.value)

def CitationBatch.fingerprints (batch : CitationBatch) : List (JsString × JsString) :=
  batch.sources.map BatchSource.fingerprint

def fingerprints (events : List StreamEvent) : List (JsString × JsString) :=
  (batches events).flatMap CitationBatch.fingerprints

def Stable (known : List (JsString × JsString)) : Prop :=
  ∀ a ∈ known, ∀ b ∈ known, a.1 = b.1 → a.2 = b.2

theorem Stable.mono {known other : List (JsString × JsString)} (stable : Stable known)
    (inside : other ⊆ known) : Stable other :=
  fun a first b second => stable a (inside first) b (inside second)

/-! ### The rules -/

def Numbered (before : List StreamEvent) (event : StreamEvent) : Prop := event.sequence = before.length

def Identified (before : List StreamEvent) (event : StreamEvent) : Prop :=
  ∀ first ∈ before.head?, event.requestId = first.requestId ∧ event.traceId = first.traceId

def StartsOnce (before : List StreamEvent) (event : StreamEvent) : Prop :=
  event.type = .started ↔ before = []

def EndsLast (before : List StreamEvent) (_ : StreamEvent) : Prop :=
  ∀ earlier ∈ before, terminalEvent earlier = false

def UsageGrows (before : List StreamEvent) (event : StreamEvent) : Prop :=
  ∀ usage ∈ event.usage?, ∀ last ∈ (usages before).getLast?, usage.decreases last = false

def CallsOnce (before : List StreamEvent) (event : StreamEvent) : Prop :=
  ∀ id ∈ event.toolCallId?, id ∉ toolCallIds before

/-- A batch links the same message as the batches before it, in the orders that follow theirs, under new
identities, and leaves the sources of the stream as they are. -/
structure BatchFollows (before : List StreamEvent) (batch : CitationBatch) : Prop where
  target : ∀ earlier ∈ (batches before).head?, batch.messageId = earlier.messageId
  orders : batch.citations.map (fun citation => citation.order.toNat?) =
    (List.range' (citations before).length batch.citations.length).map some
  distinct : (batch.citations.map Citation.citationId).Nodup
  fresh : ∀ citation ∈ batch.citations, citation.citationId ∉ (citations before).map Citation.citationId
  sources : Stable (fingerprints before ++ batch.fingerprints)

def CitationsFollow (before : List StreamEvent) (event : StreamEvent) : Prop :=
  ∀ batch ∈ event.batch?, BatchFollows before batch

/-- The frame may come after the frames `before`. -/
structure Fits (before : List StreamEvent) (event : StreamEvent) : Prop where
  numbered : Numbered before event
  identified : Identified before event
  startsOnce : StartsOnce before event
  endsLast : EndsLast before event
  usageGrows : UsageGrows before event
  callsOnce : CallsOnce before event
  citationsFollow : CitationsFollow before event

structure Complete (events : List StreamEvent) : Prop where
  fits : Everywhere Fits events
  ended : ∃ last ∈ events.getLast?, terminalEvent last = true ∧
    (stopsForToolCalls last = true → toolCallIds events ≠ [])

theorem Complete.held {events : List StreamEvent} {terminal : StreamEvent} (complete : Complete events)
    (held : (events.filter terminalEvent).getLast? = some terminal) : events.getLast? = some terminal := by
  obtain ⟨last, found, ends, -⟩ := complete.ended
  obtain ⟨front, rfl⟩ := List.getLast?_eq_some_iff.mp (Option.mem_def.mp found)
  rw [List.filter_append, List.filter_singleton, ends, cond_true] at held
  rwa [List.getLast?_concat] at held ⊢

/-! ### The loop of `parseStreamEvents` -/

/-- The variables of the loop after `events`. -/
def StreamScan.of (events : List StreamEvent) : StreamScan where
  terminalCount := events.countP terminalEvent
  lastUsage := (usages events).getLast?
  toolCallCount := (Protocol.toolCallIds events).length
  toolCallIds := (Protocol.toolCallIds events).reverse
  citationTargetId := (batches events).head?.map CitationBatch.messageId
  nextCitationOrder := (citations events).length
  citationIds := ((citations events).map Citation.citationId).reverse
  citationSources := (fingerprints events).reverse

theorem lookup_any_ne {known : List (JsString × JsString)} (stable : Stable known) {id text : JsString} :
    (known.lookup id).any (· != text) = false ↔ ∀ b ∈ known, b.1 = id → b.2 = text := by
  induction known with
  | nil => simp
  | cons first rest ih =>
    obtain ⟨key, value⟩ := first
    rw [List.lookup_cons, List.forall_mem_cons]
    by_cases same : id = key
    · subst same
      simp only [beq_self_eq_true, Option.any_some, bne_eq_false_iff_eq, forall_const]
      constructor
      · intro agrees
        refine ⟨agrees, fun b member keyed => ?_⟩
        rw [← agrees]
        exact stable b (List.mem_cons_of_mem _ member) (id, value) List.mem_cons_self keyed
      · intro all
        exact all.1
    · rw [beq_eq_false_iff_ne.mpr same]
      have tail := stable.mono (List.subset_cons_self (key, value) rest)
      rw [ih tail]
      constructor
      · intro all
        exact ⟨fun keyed => absurd keyed.symm same, all⟩
      · intro all
        exact all.2

theorem stable_cons {known : List (JsString × JsString)} (stable : Stable known) {id text : JsString} :
    Stable ((id, text) :: known) ↔ ∀ b ∈ known, b.1 = id → b.2 = text := by
  constructor
  · intro whole b member keyed
    exact whole b (List.mem_cons_of_mem _ member) (id, text) List.mem_cons_self keyed
  · intro agrees a first b second same
    rcases List.mem_cons.mp first with rfl | first
    · rcases List.mem_cons.mp second with rfl | second
      · rfl
      · exact (agrees b second same.symm).symm
    · rcases List.mem_cons.mp second with rfl | second
      · exact agrees a first same
      · exact stable a first b second same

theorem scanSources_eq_ok {index : Nat} {known out : List (JsString × JsString)} {sources : List BatchSource}
    (stable : Stable known) : scanSources index known sources = .ok out ↔
      out = (sources.map BatchSource.fingerprint).reverse ++ known ∧ Stable out := by
  induction sources generalizing index known with
  | nil =>
    rw [scanSources, Except.ok.injEq]
    constructor
    · rintro rfl
      exact ⟨rfl, stable⟩
    · intro ⟨same, _⟩
      exact same.symm
  | cons source rest ih =>
    simp only [scanSources, List.map_cons, List.reverse_cons, List.append_assoc, List.cons_append, List.nil_append]
    by_cases agrees : (known.lookup source.source.sourceId).any (· != stringify source.value) = true
    · rw [if_pos agrees]
      simp only [under, fail, Except.mapError, reduceCtorEq, false_iff, not_and]
      rintro rfl whole
      have narrowed : Stable ((source.source.sourceId, stringify source.value) :: known) :=
        whole.mono (List.subset_append_right _ _)
      rw [(lookup_any_ne stable).mpr ((stable_cons stable).mp narrowed)] at agrees
      cases agrees
    · rw [if_neg agrees]
      rw [Bool.not_eq_true, lookup_any_ne stable] at agrees
      exact ih ((stable_cons stable).mpr agrees)

theorem scanCitations_eq_ok {misplaced repeated : Nat → Nat → ValidationError} {index next : Nat}
    {ids : List JsString} {links : List Citation} {result : Nat × List JsString} :
    scanCitations misplaced repeated index next ids links = .ok result ↔
      (links.map (fun citation => citation.order.toNat?) = (List.range' next links.length).map some ∧
        (links.map Citation.citationId).Nodup ∧ ∀ citation ∈ links, citation.citationId ∉ ids) ∧
      result = (next + links.length, (links.map Citation.citationId).reverse ++ ids) := by
  induction links generalizing index next ids with
  | nil => simp [scanCitations, eq_comm]
  | cons citation rest ih =>
    rw [scanCitations]
    by_cases placed : citation.order.toNat? = some next
    · rw [if_neg (not_not_intro placed)]
      by_cases known : citation.citationId ∈ ids
      · simp [known]
      · rw [if_neg known, ih]
        rw [List.forall_mem_cons]
        simp only [List.map_cons, List.length_cons, List.range'_succ, placed, List.cons.injEq, true_and,
          List.nodup_cons, List.reverse_cons, List.append_assoc, List.cons_append, List.nil_append, known,
          not_false_eq_true, List.mem_map, not_exists, not_and]
        rw [show next + 1 + rest.length = next + (rest.length + 1) by omega]
        constructor
        · intro ⟨⟨orders, distinct, fresh⟩, same⟩
          have apart (other : Citation) (member : other ∈ rest) := not_or.mp fun inside =>
            fresh other member (List.mem_cons.mpr inside)
          exact ⟨⟨orders, ⟨fun other member => (apart other member).1, distinct⟩,
            fun other member => (apart other member).2⟩, same⟩
        · intro ⟨⟨orders, ⟨apart, distinct⟩, fresh⟩, same⟩
          refine ⟨⟨orders, distinct, fun other member inside => ?_⟩, same⟩
          exact (List.mem_cons.mp inside).elim (apart other member) (fresh other member)
    · rw [if_pos placed]
      simp [List.range'_succ, placed]

structure BodyFits (before : List StreamEvent) (event : StreamEvent) : Prop where
  usageGrows : UsageGrows before event
  callsOnce : CallsOnce before event
  citationsFollow : CitationsFollow before event

theorem scanBatch_eq_ok {before : List StreamEvent} {batch : CitationBatch} {scan : StreamScan}
    (stable : Stable (fingerprints before)) : scanBatch (.of before) batch = .ok scan ↔
      BatchFollows before batch ∧ { StreamScan.of before with
        citationTargetId := some (((batches before).head?.map CitationBatch.messageId).getD batch.messageId)
        nextCitationOrder := (citations before).length + batch.citations.length
        citationIds := (batch.citations.map Citation.citationId).reverse ++
          ((citations before).map Citation.citationId).reverse
        citationSources := batch.fingerprints.reverse ++ (fingerprints before).reverse } = scan := by
  have target : ((batches before).head?.map CitationBatch.messageId).all (batch.messageId == ·) = true ↔
      ∀ earlier ∈ (batches before).head?, batch.messageId = earlier.messageId := by
    cases (batches before).head? <;> simp
  have reversed : Stable (fingerprints before).reverse :=
    stable.mono fun _ member => List.mem_reverse.mp member
  have merged : Stable (batch.fingerprints.reverse ++ (fingerprints before).reverse) ↔
      Stable (fingerprints before ++ batch.fingerprints) := by
    constructor
    · exact fun whole => whole.mono (by intro _ member; simpa [or_comm] using member)
    · exact fun whole => whole.mono (by intro _ member; simpa [or_comm] using member)
  simp only [scanBatch, bind_eq_ok, must_eq_ok, StreamScan.of, target, scanSources_eq_ok reversed,
    scanCitations_eq_ok, List.mem_reverse, Except.ok.injEq]
  constructor
  · rintro ⟨_, follows, _, ⟨rfl, whole⟩, _, ⟨⟨orders, distinct, fresh⟩, rfl⟩, rfl⟩
    exact ⟨⟨follows, orders, distinct, fresh, merged.mp whole⟩, rfl⟩
  · rintro ⟨follows, rfl⟩
    exact ⟨(), follows.target, _, ⟨rfl, merged.mpr follows.sources⟩, _,
      ⟨⟨follows.orders, follows.distinct, follows.fresh⟩, rfl⟩, rfl⟩

section
variable (before : List StreamEvent) (event : StreamEvent)

theorem usages_snoc : usages (before ++ [event]) = usages before ++ event.usage?.toList := by
  cases found : event.usage? <;> simp [usages, found]

theorem toolCallIds_snoc : toolCallIds (before ++ [event]) = toolCallIds before ++ event.toolCallId?.toList := by
  cases found : event.toolCallId? <;> simp [toolCallIds, found]

theorem batches_snoc : batches (before ++ [event]) = batches before ++ event.batch?.toList := by
  cases found : event.batch? <;> simp [batches, found]

theorem citations_snoc : citations (before ++ [event]) =
    citations before ++ event.batch?.toList.flatMap CitationBatch.citations := by
  rw [citations, batches_snoc, List.flatMap_append]
  rfl

theorem fingerprints_snoc : fingerprints (before ++ [event]) =
    fingerprints before ++ event.batch?.toList.flatMap CitationBatch.fingerprints := by
  rw [fingerprints, batches_snoc, List.flatMap_append]
  rfl

end

theorem scanBody_eq_ok {before : List StreamEvent} {event : StreamEvent} {scan : StreamScan}
    (stable : Stable (fingerprints before)) :
    scanBody (.of before) event = .ok scan ↔ BodyFits before event ∧ .of (before ++ [event]) = scan := by
  have grown : StreamScan.of (before ++ [event]) = { StreamScan.of before with
      terminalCount := before.countP terminalEvent + if terminalEvent event then 1 else 0
      lastUsage := (usages before ++ event.usage?.toList).getLast?
      toolCallCount := (toolCallIds before ++ event.toolCallId?.toList).length
      toolCallIds := (toolCallIds before ++ event.toolCallId?.toList).reverse
      citationTargetId := (batches before ++ event.batch?.toList).head?.map CitationBatch.messageId
      nextCitationOrder := (citations before ++ event.batch?.toList.flatMap CitationBatch.citations).length
      citationIds := ((citations before ++ event.batch?.toList.flatMap CitationBatch.citations).map
        Citation.citationId).reverse
      citationSources :=
        (fingerprints before ++ event.batch?.toList.flatMap CitationBatch.fingerprints).reverse } := by
    simp [StreamScan.of, usages_snoc, toolCallIds_snoc, batches_snoc, citations_snoc, fingerprints_snoc,
      List.countP_append]
  rw [grown]
  have rules : BodyFits before event ↔
      UsageGrows before event ∧ CallsOnce before event ∧ CitationsFollow before event :=
    ⟨fun fits => ⟨fits.1, fits.2, fits.3⟩, fun ⟨usage, call, batch⟩ => ⟨usage, call, batch⟩⟩
  rw [rules]
  obtain ⟨envelope, value, body⟩ := event
  cases body with
  | started | textDelta | completed | cancelled | error =>
    simp [scanBody, UsageGrows, CallsOnce, CitationsFollow, StreamEvent.usage?, StreamEvent.toolCallId?,
      StreamEvent.batch?, terminalEvent, StreamEvent.type, StreamEventBody.type, StreamScan.of]
  | usage usage =>
    have grows : (!(usages before).getLast?.any usage.decreases) = true ↔
        ∀ last ∈ (usages before).getLast?, usage.decreases last = false := by
      cases (usages before).getLast? <;> simp
    simp [scanBody, UsageGrows, CallsOnce, CitationsFollow, StreamEvent.usage?, StreamEvent.toolCallId?,
      StreamEvent.batch?, terminalEvent, StreamEvent.type, StreamEventBody.type, StreamScan.of, bind_eq_ok, grows]
  | toolCall toolCallId name arguments =>
    simp [scanBody, UsageGrows, CallsOnce, CitationsFollow, StreamEvent.usage?, StreamEvent.toolCallId?,
      StreamEvent.batch?, terminalEvent, StreamEvent.type, StreamEventBody.type, StreamScan.of, bind_eq_ok]
  | citationBatch batch =>
    rw [scanBody, scanBatch_eq_ok stable]
    simp [UsageGrows, CallsOnce, CitationsFollow, StreamEvent.usage?, StreamEvent.toolCallId?,
      StreamEvent.batch?, terminalEvent, StreamEvent.type, StreamEventBody.type, StreamScan.of]

theorem BodyFits.stable {before : List StreamEvent} {event : StreamEvent} (fits : BodyFits before event)
    (stable : Stable (fingerprints before)) : Stable (fingerprints (before ++ [event])) := by
  rw [fingerprints_snoc]
  cases found : event.batch? with
  | none => simpa using stable
  | some batch => simpa using (fits.citationsFollow batch found).sources

/-- What a turn of the loop asks of the frame, in a stream that begins with `first`. -/
structure Scanned (first : StreamEvent) (before : List StreamEvent) (event : StreamEvent) : Prop where
  requestId : event.requestId = first.requestId
  traceId : event.traceId = first.traceId
  numbered : Numbered before event
  later : before ≠ [] → event.type ≠ .started
  body : BodyFits before event

theorem scanEvent_eq_ok {first event : StreamEvent} {length : Nat} {before : List StreamEvent} {scan : StreamScan}
    (stable : Stable (fingerprints before)) :
    scanEvent first length before.length (.of before) event = .ok scan ↔
      (Scanned first before event ∧ (terminalEvent event = true → before.length + 1 = length)) ∧
        .of (before ++ [event]) = scan := by
  have once : (!(before.length != 0 && event.type == .started)) = true ↔
      (before ≠ [] → event.type ≠ .started) := by
    cases before <;> simp
  have last : (!(terminalEvent event && before.length + 1 != length)) = true ↔
      (terminalEvent event = true → before.length + 1 = length) := by
    cases terminalEvent event <;> simp
  simp only [scanEvent, under_eq_ok, bind_eq_ok, must_eq_ok, beq_iff_eq, once, last, scanBody_eq_ok stable]
  constructor
  · rintro ⟨_, request, _, trace, _, numbered, _, later, _, ends, body, grown⟩
    exact ⟨⟨⟨request, trace, numbered, later, body⟩, ends⟩, grown⟩
  · rintro ⟨⟨⟨request, trace, numbered, later, body⟩, ends⟩, grown⟩
    exact ⟨(), request, (), trace, (), numbered, (), later, (), ends, body, grown⟩

theorem scanEvents_eq_ok {first : StreamEvent} {before rest : List StreamEvent} {scan : StreamScan}
    (stable : Stable (fingerprints before)) :
    scanEvents first (before.length + rest.length) before.length (.of before) rest = .ok scan ↔
      (∀ middle event after, rest = middle ++ event :: after →
        Scanned first (before ++ middle) event ∧ (terminalEvent event = true → after = [])) ∧
        .of (before ++ rest) = scan := by
  induction rest generalizing before with
  | nil => simp [scanEvents]
  | cons event rest ih =>
    have length : before.length + (event :: rest).length = (before ++ [event]).length + rest.length := by
      simp only [List.length_append, List.length_cons, List.length_nil]
      omega
    have joined : before ++ event :: rest = before ++ [event] ++ rest := by simp
    have last : before.length + 1 = (before ++ [event]).length + rest.length ↔ rest = [] := by
      rw [List.length_append, List.length_singleton, ← List.length_eq_zero_iff]
      omega
    rw [scanEvents, bind_eq_ok, length, joined]
    simp only [scanEvent_eq_ok stable, last]
    constructor
    · rintro ⟨_, ⟨⟨scanned, ends⟩, rfl⟩, later⟩
      rw [show before.length + 1 = (before ++ [event]).length by simp, ih (scanned.body.stable stable)] at later
      refine ⟨fun middle other after split => ?_, later.2⟩
      cases middle with
      | nil =>
        obtain ⟨rfl, rfl⟩ := List.cons.inj split
        rw [List.append_nil]
        exact ⟨scanned, ends⟩
      | cons head middle =>
        obtain ⟨rfl, tail⟩ := List.cons.inj split
        have := later.1 middle other after tail
        rwa [List.append_assoc, List.singleton_append] at this
    · rintro ⟨each, grown⟩
      have now := each [] event rest rfl
      rw [List.append_nil] at now
      refine ⟨_, ⟨now, rfl⟩, ?_⟩
      rw [show before.length + 1 = (before ++ [event]).length by simp, ih (now.1.body.stable stable)]
      refine ⟨fun middle other after split => ?_, grown⟩
      have := each (event :: middle) other after (by rw [split, List.cons_append])
      rwa [List.append_assoc, List.singleton_append]

theorem stable_nil : Stable (fingerprints []) := by
  intro a member
  simp [fingerprints, batches] at member

theorem scanEvents_initial {first : StreamEvent} {rest : List StreamEvent} {scan : StreamScan} :
    scanEvents first (rest.length + 1) 0 .initial (first :: rest) = .ok scan ↔
      (∀ middle event after, first :: rest = middle ++ event :: after →
        Scanned first middle event ∧ (terminalEvent event = true → after = [])) ∧
        .of (first :: rest) = scan := by
  have length : ([] : List StreamEvent).length + (first :: rest).length = rest.length + 1 := by simp
  rw [← length]
  exact scanEvents_eq_ok stable_nil

theorem scanned_iff {first : StreamEvent} {rest : List StreamEvent} :
    (first.type = .started ∧ ∀ middle event after, first :: rest = middle ++ event :: after →
      Scanned first middle event ∧ (terminalEvent event = true → after = [])) ↔
      Everywhere Fits (first :: rest) := by
  constructor
  · intro ⟨started, each⟩ before event after split
    have scanned := (each before event after split).1
    refine ⟨scanned.numbered, ?_, ?_, ?_, scanned.body.usageGrows, scanned.body.callsOnce,
      scanned.body.citationsFollow⟩
    · intro head found
      cases before with
      | nil => cases found
      | cons head' before =>
        obtain ⟨rfl, -⟩ := List.cons.inj split
        obtain rfl := Option.some.inj found
        exact ⟨scanned.requestId, scanned.traceId⟩
    · constructor
      · intro starts
        by_contra nonempty
        exact scanned.later nonempty starts
      · rintro rfl
        obtain ⟨rfl, -⟩ := List.cons.inj split
        exact started
    · intro earlier member
      obtain ⟨left, right, rfl⟩ := List.append_of_mem member
      by_contra ends
      rw [Bool.not_eq_false] at ends
      have none := (each left earlier (right ++ event :: after) (by rw [split]; simp)).2 ends
      simp at none
  · intro whole
    refine ⟨(whole [] first rest rfl).startsOnce.mpr rfl, fun middle event after split => ?_⟩
    have fits := whole middle event after split
    have same : event.requestId = first.requestId ∧ event.traceId = first.traceId := by
      cases middle with
      | nil =>
        obtain ⟨rfl, -⟩ := List.cons.inj split
        exact ⟨rfl, rfl⟩
      | cons head middle =>
        obtain ⟨rfl, -⟩ := List.cons.inj split
        exact fits.identified first rfl
    refine ⟨⟨same.1, same.2, fits.numbered, fun nonempty starts => nonempty (fits.startsOnce.mp starts),
      fits.usageGrows, fits.callsOnce, fits.citationsFollow⟩, fun ends => ?_⟩
    cases after with
    | nil => rfl
    | cons next after =>
      have later := (whole (middle ++ [event]) next after (by rw [split]; simp)).endsLast event (by simp)
      rw [ends] at later
      cases later

theorem terminalCount_eq {events : List StreamEvent} {last : StreamEvent}
    (fits : Everywhere Fits (events ++ [last])) :
    (events ++ [last]).countP terminalEvent = if terminalEvent last then 1 else 0 := by
  have earlier : events.countP terminalEvent = 0 := by
    rw [List.countP_eq_zero]
    intro event member ends
    have := (everywhere_snoc.mp fits).2.endsLast event member
    rw [ends] at this
    cases this
  rw [List.countP_append, earlier, List.countP_singleton, Nat.zero_add]

theorem validateStream_eq_ok {events out : List StreamEvent} :
    validateStream events = .ok out ↔ Complete events ∧ events = out := by
  cases events with
  | nil =>
    simp only [validateStream, under, fail, Except.mapError, reduceCtorEq, false_iff, not_and]
    rintro ⟨_, last, found, _⟩
    cases found
  | cons first rest =>
    obtain ⟨front, last, shape⟩ : ∃ front last, first :: rest = front ++ [last] :=
      ⟨_, _, (List.dropLast_append_getLast (List.cons_ne_nil first rest)).symm⟩
    have count (fits : Everywhere Fits (first :: rest)) :
        (first :: rest).countP terminalEvent = if terminalEvent last then 1 else 0 := by
      rw [shape] at fits ⊢
      exact terminalCount_eq fits
    have final : (first :: rest).getLast? = some last := by rw [shape, List.getLast?_concat]
    have calls : ((StreamScan.of (first :: rest)).toolCallCount == 0) = true ↔ toolCallIds (first :: rest) = [] := by
      simp [StreamScan.of]
    simp only [validateStream, bind_eq_ok, must_eq_ok, beq_iff_eq, scanEvents_initial, final, Option.any_some]
    constructor
    · rintro ⟨_, started, scan, ⟨each, rfl⟩, _, ended, taken⟩
      have fits := scanned_iff.mp ⟨started, each⟩
      split at taken
      · cases taken
      · rename_i excused
        refine ⟨⟨fits, last, final, ?_, fun stops none => ?_⟩, Except.ok.inj taken⟩
        · rw [StreamScan.of, count fits] at ended
          by_contra open'
          rw [if_neg open'] at ended
          cases ended
        · rw [stops, calls.mpr none] at excused
          exact excused rfl
    · rintro ⟨⟨fits, last', found, ends, stops⟩, rfl⟩
      obtain rfl := Option.some.inj (final.symm.trans found)
      obtain ⟨started, each⟩ := scanned_iff.mpr fits
      refine ⟨(), started, _, ⟨each, rfl⟩, (), ?_, ?_⟩
      · rw [StreamScan.of, count fits, if_pos ends]
      · rw [if_neg]
        intro refused
        rw [Bool.and_eq_true, calls] at refused
        exact stops refused.1 refused.2

theorem toolCallIds_nodup {events : List StreamEvent} (once : Everywhere CallsOnce events) :
    (toolCallIds events).Nodup := by
  rcases List.eq_nil_or_concat events with rfl | ⟨front, last, rfl⟩
  · exact List.nodup_nil
  · rw [List.concat_eq_append] at once ⊢
    obtain ⟨earlier, rule⟩ := everywhere_snoc.mp once
    rw [toolCallIds_snoc, List.nodup_append]
    refine ⟨toolCallIds_nodup earlier, ?_, fun a member b last same => ?_⟩
    · cases last.toolCallId? <;> simp
    · rw [same] at member
      exact rule b (Option.mem_toList.mp last) member
termination_by events.length

/-! ### Frames as they are parsed -/

theorem sourceIds_batchSources (records : List CitationSource) (value : Option Json) :
    ((batchSources records value).map fun source => source.source.sourceId).Sublist
      (records.map CitationSource.sourceId) := by
  unfold batchSources
  split
  · rename_i values
    induction records generalizing values with
    | nil => simp
    | cons record rest ih =>
      cases values with
      | nil => simp
      | cons value values =>
        rw [List.zipWith_cons_cons, List.map_cons, List.map_cons]
        exact (ih values).cons_cons _
  · exact List.nil_sublist _

section
variable [WebPlatform]

theorem parseStreamEvent_value {value : Option Json} {event : StreamEvent}
    (accepted : parseStreamEvent value = .ok event) : value = some event.value := by
  simp only [parseStreamEvent, under_eq_ok, bind_eq_ok, record_eq_ok, Except.ok.injEq] at accepted
  obtain ⟨object, ⟨given, _⟩, _, _, _, _, _, _, rfl⟩ := accepted
  exact given

theorem validateCitationBatch_distinct {object : Fields} {envelope : Envelope} {batch : CitationBatch}
    (accepted : validateCitationBatch object = .ok (envelope, batch)) :
    (batch.sources.map fun source => source.source.sourceId).Nodup := by
  simp only [validateCitationBatch, bind_eq_ok, must_eq_ok, Bool.and_eq_true, Except.ok.injEq, Prod.mk.injEq,
    caught_eq_ok] at accepted
  obtain ⟨_, _, _, _, records, normalized, _, _, _, ⟨sameSources, sameCitations⟩, _, _, _, rfl⟩ := accepted
  obtain ⟨sources, givenSources, sameSources⟩ := (Option.any_eq_true _ _).mp sameSources
  obtain ⟨citations, givenCitations, sameCitations⟩ := (Option.any_eq_true _ _).mp sameCitations
  rw [givenSources, givenCitations] at normalized
  have normal := (CitationRecordSet.normal_of_equal normalized sameSources sameCitations).1
  exact normal.sourceIds.sublist (sourceIds_batchSources _ _)

theorem parseStreamEvent_sources {value : Option Json} {event : StreamEvent}
    (accepted : parseStreamEvent value = .ok event) : ∀ batch ∈ event.batch?, Stable batch.fingerprints := by
  intro batch found
  simp only [parseStreamEvent, under_eq_ok, bind_eq_ok, record_eq_ok, Except.ok.injEq] at accepted
  obtain ⟨object, _, type, _, ⟨envelope, body⟩, checked, _, _, rfl⟩ := accepted
  have distinct : (batch.sources.map fun source => source.source.sourceId).Nodup := by
    cases type with
    | citationBatch =>
      simp only [validateBody, bind_eq_ok, Except.ok.injEq, Prod.mk.injEq] at checked
      obtain ⟨⟨_, batch'⟩, taken, rfl, rfl⟩ := checked
      obtain rfl := Option.some.inj found
      exact validateCitationBatch_distinct taken
    | started =>
      simp only [validateBody, bind_eq_ok, Except.ok.injEq, Prod.mk.injEq] at checked
      obtain ⟨_, _, _, _, _, _, _, _, -, rfl⟩ := checked
      cases found
    | toolCall =>
      simp only [validateBody, bind_eq_ok, Except.ok.injEq, Prod.mk.injEq] at checked
      obtain ⟨_, _, _, _, _, _, _, _, _, _, -, rfl⟩ := checked
      cases found
    | textDelta | usage | completed | cancelled | error =>
      simp only [validateBody, bind_eq_ok, Except.ok.injEq, Prod.mk.injEq] at checked
      obtain ⟨_, _, -, rfl⟩ := checked
      cases found
  intro a first b second same
  obtain ⟨source, member, rfl⟩ := List.mem_map.mp first
  obtain ⟨other, member', rfl⟩ := List.mem_map.mp second
  have := List.inj_on_of_nodup_map distinct member member' same
  rw [this]

def closingFields (first : StreamEvent) (sequence : Nat) : List (String × Json) := [
  ("type", literal StreamEventType.cancelled), ("protocol_version", .str (js protocolVersion)),
  ("request_id", first.requestId.toJson), ("trace_id", first.traceId.toJson),
  ("sequence", .num (JsNumber.ofNat sequence)), ("reason", literal CancellationReason.runtimeShutdown)]

def closingEvent (first : StreamEvent) (sequence : Nat) : StreamEvent where
  requestId := first.requestId
  traceId := first.traceId
  sequence
  value := Json.object (closingFields first sequence)
  body := .cancelled .runtimeShutdown

theorem parseStreamEvent_closingEvent {first : StreamEvent} {sequence : Nat} (later : sequence ≠ 0) :
    parseStreamEvent (some (closingEvent first sequence).value) = .ok (closingEvent first sequence) := by
  have distinct : (Json.keys (Json.fieldsOf (closingFields first sequence))).Nodup := by
    simp [closingFields, Json.keys, Json.fieldsOf]
  have envelope : validateEnvelope (Json.fieldsOf (closingFields first sequence)) ["reason"] =
      .ok (closingEvent first sequence).toEnvelope := by
    simp only [validateEnvelope, bind_eq_ok, must_eq_ok, field_eq_ok, Json.get_fieldsOf]
    refine ⟨(), requiredKeys_eq_ok.mpr (by simp [closingFields, Json.hasOwn]), (),
      allowedKeys_eq_ok.mpr (by simp [closingFields, Json.keys, Json.fieldsOf]), (),
      beq_self_eq_true (js protocolVersion), first.requestId, stringValue_toJson _, first.traceId, stringValue_toJson _,
      sequence, nonNegativeInteger_ofNat _, none, ?_, rfl⟩
    exact optionalField_eq_ok.mpr (.inl ⟨rfl, by simp [closingFields]⟩)
  simp only [parseStreamEvent, under_eq_ok, bind_eq_ok, must_eq_ok, record_eq_ok, field_eq_ok]
  refine ⟨_, ⟨rfl, distinct⟩, .cancelled, ?_, (_, .cancelled .runtimeShutdown), ?_, (), ?_, rfl⟩
  · rw [Json.get_fieldsOf]
    exact enumValue_literal (Enumeration.mem_values _)
  · simp only [validateBody, validateSingle, bind_eq_ok, field_eq_ok, Json.get_fieldsOf]
    exact ⟨(_, .runtimeShutdown), ⟨_, envelope, (), requiredKeys_eq_ok.mpr (by simp [closingFields, Json.hasOwn]), _,
      enumValue_literal (Enumeration.mem_values _), rfl⟩, rfl⟩
  · simpa using later

/-! ### Prefixes of whole responses -/

theorem parseStreamEvents_eq_ok {values : List Json} {events : List StreamEvent} :
    parseStreamEvents (some (.arr values)) = .ok events ↔
      List.Forall₂ (fun value event => parseStreamEvent (some value) = .ok event) values events ∧
        Complete events := by
  simp only [parseStreamEvents, bind_eq_ok, everyItem_eq_ok, validateStream_eq_ok]
  constructor
  · rintro ⟨_, parsed, complete, rfl⟩
    exact ⟨parsed, complete⟩
  · intro ⟨parsed, complete⟩
    exact ⟨events, parsed, complete, rfl⟩

def Extends (delivered : List StreamEvent) : Prop :=
  ∃ later events, parseStreamEvents (some (.arr (delivered.map StreamEvent.value ++ later))) = .ok events

omit [WebPlatform] in
theorem closing_complete {first : StreamEvent} {rest : List StreamEvent} (fits : Everywhere Fits (first :: rest))
    (isOpen : ∀ event ∈ first :: rest, terminalEvent event = false) :
    Complete (first :: rest ++ [closingEvent first (rest.length + 1)]) := by
  refine ⟨everywhere_snoc.mpr ⟨fits, ?_⟩, closingEvent first (rest.length + 1), List.getLast?_concat, rfl, ?_⟩
  · refine ⟨rfl, ?_, ?_, isOpen, ?_, ?_, ?_⟩
    · intro head found
      obtain rfl := Option.some.inj found
      exact ⟨rfl, rfl⟩
    · simp [StartsOnce, closingEvent, StreamEvent.type, StreamEventBody.type]
    · intro _ found
      cases found
    · intro _ found
      cases found
    · intro _ found
      cases found
  · intro stops
    cases stops

theorem forall₂_parsed {delivered : List StreamEvent}
    (parsed : ∀ event ∈ delivered, parseStreamEvent (some event.value) = .ok event) :
    List.Forall₂ (fun value event => parseStreamEvent (some value) = .ok event)
      (delivered.map StreamEvent.value) delivered := by
  rw [List.forall₂_map_left_iff, List.forall₂_same]
  exact parsed

theorem Complete.extends {delivered : List StreamEvent} (complete : Complete delivered)
    (parsed : ∀ event ∈ delivered, parseStreamEvent (some event.value) = .ok event) : Extends delivered := by
  refine ⟨[], delivered, parseStreamEvents_eq_ok.mpr ⟨?_, complete⟩⟩
  rw [List.append_nil]
  exact forall₂_parsed parsed

/-- A list of values that begins with delivered frames is parsed to those frames and more. -/
theorem parsed_prefix {delivered events : List StreamEvent} {later : List Json}
    (parsed : ∀ event ∈ delivered, parseStreamEvent (some event.value) = .ok event)
    (each : List.Forall₂ (fun value event => parseStreamEvent (some value) = .ok event)
      (delivered.map StreamEvent.value ++ later) events) : ∃ more, events = delivered ++ more := by
  induction delivered generalizing events with
  | nil => exact ⟨events, rfl⟩
  | cons event rest ih =>
    rw [List.forall_mem_cons] at parsed
    rw [List.map_cons, List.cons_append] at each
    cases each with
    | cons first each =>
      obtain ⟨more, rfl⟩ := ih parsed.2 each
      obtain rfl := Except.ok.inj (parsed.1.symm.trans first)
      exact ⟨more, rfl⟩

theorem complete_of_accepted {events whole : List StreamEvent}
    (parsed : ∀ event ∈ events, parseStreamEvent (some event.value) = .ok event)
    (accepted : parseStreamEvents (some (.arr (events.map StreamEvent.value))) = .ok whole) : Complete events := by
  obtain ⟨each, complete⟩ := parseStreamEvents_eq_ok.mp accepted
  have length := each.length_eq
  rw [← List.append_nil (events.map StreamEvent.value)] at each
  obtain ⟨more, rfl⟩ := parsed_prefix parsed each
  rw [List.length_map, List.length_append] at length
  obtain rfl : more = [] := List.length_eq_zero_iff.mp (by omega)
  rwa [List.append_nil] at complete

theorem Extends.fits {delivered : List StreamEvent} (grows : Extends delivered)
    (parsed : ∀ event ∈ delivered, parseStreamEvent (some event.value) = .ok event) :
    Everywhere Fits delivered := by
  obtain ⟨later, events, accepted⟩ := grows
  obtain ⟨each, complete⟩ := parseStreamEvents_eq_ok.mp accepted
  obtain ⟨more, rfl⟩ := parsed_prefix parsed each
  exact complete.fits.of_append

end

/-! ### Sample frames -/

def sampleFrame (type : StreamEventType) (sequence : Nat) (fields : List (String × Json)) : Json :=
  Json.object ([("type", literal type), ("protocol_version", .str (js protocolVersion)),
    ("request_id", .str (js "request-1")), ("trace_id", .str (js "trace-1")),
    ("sequence", .num (JsNumber.ofNat sequence))] ++ fields)

def sampleMember (id : Json) : Json := Json.object [
  ("id", id), ("source", .str (js "server_derived")), ("trust", .str (js "authoritative"))]

def sampleStarted : Json := sampleFrame .started 0 [("attribution", Json.object [
  ("organization", sampleMember (.str (js "org-1"))), ("project", sampleMember (.str (js "project-1"))),
  ("service_environment", sampleMember (.str (js "env-1"))), ("known_user", sampleMember .null),
  ("session", sampleMember .null), ("automation", sampleMember .null)])]

section
variable [WebPlatform]

omit [WebPlatform] in
theorem exists_of_isOk {ε α : Type} {check : Except ε α} (accepted : check.isOk = true) :
    ∃ value, check = .ok value := by
  cases check with
  | error => cases accepted
  | ok value => exact ⟨value, rfl⟩

theorem extends_nil : Extends [] := by
  have accepted : (parseStreamEvents (some (.arr [sampleStarted,
      sampleFrame .cancelled 1 [("reason", literal CancellationReason.runtimeShutdown)]]))).isOk = true := by rfl
  obtain ⟨events, parsed⟩ := exists_of_isOk accepted
  exact ⟨_, events, parsed⟩

/-- Frames without a terminal one begin a whole response exactly when each fits those before it. -/
theorem extends_iff {delivered : List StreamEvent}
    (parsed : ∀ event ∈ delivered, parseStreamEvent (some event.value) = .ok event)
    (isOpen : ∀ event ∈ delivered, terminalEvent event = false) :
    Extends delivered ↔ Everywhere Fits delivered := by
  constructor
  · intro grows
    exact grows.fits parsed
  · intro fits
    cases delivered with
    | nil => exact extends_nil
    | cons first rest =>
      let closing := closingEvent first (rest.length + 1)
      refine ⟨[closing.value], _, parseStreamEvents_eq_ok.mpr ⟨?_, closing_complete fits isOpen⟩⟩
      have last : parseStreamEvent (some closing.value) = .ok closing :=
        parseStreamEvent_closingEvent (Nat.succ_ne_zero rest.length)
      have whole : ∀ event ∈ first :: rest ++ [closing], parseStreamEvent (some event.value) = .ok event := by
        rw [List.forall_mem_append, List.forall_mem_singleton]
        exact ⟨parsed, last⟩
      have each := forall₂_parsed whole
      rwa [List.map_append] at each

end

end Handrail.Protocol

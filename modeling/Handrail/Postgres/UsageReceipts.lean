import Handrail.Postgres.UsageOutbox

/-!
# Captured receipts stay

What holds of the outbox under any interleaving of sinks: receipts stay as they were captured, a
status other than `pending` was settled, `delivered` is final, and so is `failed` unless a retryable
failure meets a receipt that another flush has failed.
-/

namespace Handrail.Postgres
open Js Conversation Usage Concurrent

/-! ### What is kept -/

def SettleOutcome.isFinal : SettleOutcome → Bool
  | .accepted => true
  | .rejected error => !error.retryable
  | .broken => false

def Settled (s : OutboxState) (recordId : JsString) : Prop :=
  ∃ x ∈ s.settlements, x.1.receipt.usageReceiptId = recordId ∧ x.2.isFinal = true

structure Follows (strict : Bool) (d e : UsageOutboxRecord Json) : Prop where
  receipt : e.entry.receipt = d.entry.receipt
  enqueuedAt : e.entry.enqueuedAt = d.entry.enqueuedAt
  delivered : d.status = .delivered → e.status = .delivered
  failed : strict = true → d.status = .failed → e.status ≠ .pending

theorem Follows.refl (strict : Bool) (d : UsageOutboxRecord Json) : Follows strict d d where
  receipt := rfl
  enqueuedAt := rfl
  delivered := id
  failed _ failed := by
    rw [failed]
    intro same
    cases same

variable {strict : Bool}

theorem Follows.trans {a b c : UsageOutboxRecord Json} (ab : Follows strict a b)
    (bc : Follows strict b c) : Follows strict a c where
  receipt := bc.receipt.trans ab.receipt
  enqueuedAt := bc.enqueuedAt.trans ab.enqueuedAt
  delivered is := bc.delivered (ab.delivered is)
  failed isStrict is := by
    have first := ab.failed isStrict is
    cases status : b.status with
    | pending => exact (first status).elim
    | failed => exact bc.failed isStrict status
    | delivered =>
      rw [bc.delivered status]
      intro same
      cases same

structure Evolves (strict : Bool) (s t : OutboxState) : Prop where
  documents : Later (Follows strict) s.table t.table
  settlements : s.settlements ⊆ t.settlements

theorem Evolves.refl (strict : Bool) (s : OutboxState) : Evolves strict s s where
  documents := Later.refl (Follows.refl strict) _
  settlements := List.Subset.refl _

theorem Evolves.trans {s t u : OutboxState} (st : Evolves strict s t) (tu : Evolves strict t u) :
    Evolves strict s u where
  documents := Later.trans Follows.trans st.documents tu.documents
  settlements _ member := tu.settlements (st.settlements member)

variable {recordId : JsString}

theorem Settled.later {s t : OutboxState} (settled : Settled s recordId)
    (evolves : Evolves strict s t) : Settled t recordId := by
  obtain ⟨x, member, which, final⟩ := settled
  exact ⟨x, evolves.settlements member, which, final⟩

theorem Evolves.unchanged {s t : OutboxState} (evolves : Evolves strict s t) {key : DocumentKey}
    {d e : Versioned (UsageOutboxRecord Json)}
    (before : s.table key = some d) (current : (t.table key).map Versioned.version = some d.version)
    (after : t.table key = some e) : e = d := by
  obtain ⟨f, found, _, same, _⟩ := evolves.documents key d before
  rw [after] at found current
  obtain rfl := Option.some.inj found
  exact same (Option.some.inj current)

theorem Follows.of_entry {d record : UsageOutboxRecord Json}
    (receipt : record.entry.receipt = d.entry.receipt) (printed : d.entry.receipt.roundTrip = d.entry.receipt)
    (enqueuedAt : record.entry.enqueuedAt = d.entry.enqueuedAt) (delivered : d.status = .delivered → record.status = .delivered)
    (failed : strict = true → d.status = .failed → record.status ≠ .pending) : Follows strict d record.stringify where
  receipt := by rw [UsageOutboxRecord.stringify, receipt, printed]
  enqueuedAt := enqueuedAt
  delivered := delivered
  failed := failed

def IsContent (stored : Json) (receipt : NormalizedUsageReceipt) : Prop :=
  stored = receipt.json.roundTrip ∨ jsonValuesEqual stored receipt.json = true

namespace PostgresAIRuntimeUsageOutbox
variable (outbox : PostgresAIRuntimeUsageOutbox)

def Stored (s : OutboxState) (receipt : NormalizedUsageReceipt) : Prop :=
  ∃ d, s.table (outbox.key receipt.usageReceiptId) = some d ∧ IsContent d.record.entry.receipt receipt

structure Invariant (s : OutboxState) : Prop where
  settled : ∀ recordId d, s.table (outbox.key recordId) = some d → d.record.status ≠ .pending → Settled s recordId
  printed : ∀ key d, s.table key = some d → d.record.entry.receipt.roundTrip = d.record.entry.receipt

def failedAgain (op : OutboxOp) (s : OutboxState) : Bool :=
  match op with
  | .get (.failed true) recordId => (s.table (outbox.key recordId)).any fun d => d.record.status == .failed
  | _ => false

variable {outbox} {strict : Bool} {s t : OutboxState}

theorem Stored.later {receipt : NormalizedUsageReceipt} (stored : outbox.Stored s receipt) (evolves : Evolves strict s t) :
    outbox.Stored t receipt := by
  obtain ⟨d, found, content⟩ := stored
  obtain ⟨e, later, _, _, follows⟩ := evolves.documents _ d found
  exact ⟨e, later, follows.receipt ▸ content⟩

variable [DatePlatform]

def contract (outbox : PostgresAIRuntimeUsageOutbox) (strict : Bool) : Contract outbox.sinkCode where
  invariant := outbox.Invariant
  rely _ := Evolves strict
  guarantee _ := Evolves strict
  starts _ := True
  fair _ _ := True
  meets op s := strict = true → outbox.failedAgain op s = false
  pre _ outputs _ := outputs = []
  trace _ outputs s := ∀ receipt, .captured receipt ∈ outputs → outbox.Stored s receipt
  rely_refl _ := Evolves.refl strict
  rely_trans := Evolves.trans
  relies evolves _ _ := evolves
  pre_stable empty _ := empty
  trace_stable stored _ evolves receipt member := (stored receipt member).later evolves
  start_pre _ _ := rfl
  start_trace _ _ := by simp

variable {kind : SinkKind} {outputs : List SinkOutput}

variable {thrown : Thrown → SinkProgram}

theorem safe_query {op : OutboxOp} {next : OutboxReply op → SinkProgram}
    (runs : ∀ t, Evolves strict s t → outbox.Invariant t → (strict = true → outbox.failedAgain op t = false) →
      outbox.Invariant (outbox.perform op t).1 ∧ Evolves strict t (outbox.perform op t).1 ∧
        (outbox.contract strict).Safe kind (next (outbox.perform op t).2) outputs (outbox.perform op t).1)
    (throws : (outbox.contract strict).Safe kind (thrown .other) outputs s) :
    (outbox.contract strict).Safe kind (query op next thrown) outputs s := by
  intro reading _
  dsimp only
  cases reading.fault with
  | none => exact runs
  | before => exact throws
  | after =>
    intro t later invariant meets
    obtain ⟨kept, evolves, _⟩ := runs t later invariant meets
    exact ⟨kept, evolves, throws.stable _ (later.trans evolves)⟩

theorem safe_getRecord {reader : OutboxReader}
    {next : Option (Versioned (UsageOutboxRecord NormalizedUsageReceipt)) → SinkProgram}
    (absent : ∀ t, Evolves strict s t → (outbox.contract strict).Safe kind (next none) outputs t)
    (found : ∀ t d record, Evolves strict s t → t.table (outbox.key recordId) = some d →
      usageOutboxRecord d.record = some record → (strict = true → outbox.failedAgain (.get reader recordId) t = false) →
        (outbox.contract strict).Safe kind (next (some ⟨d.version, record⟩)) outputs t)
    (throws : (outbox.contract strict).Safe kind (thrown .other) outputs s) :
    (outbox.contract strict).Safe kind (getRecord reader recordId next thrown) outputs s := by
  refine safe_query (fun t later invariant meets => ⟨invariant, Evolves.refl strict t, ?_⟩) throws
  simp only [perform]
  split
  · exact throws.stable _ later
  · exact absent t later
  · rename_i d read
    have current := getDocument_ok read
    split
    · exact throws.stable _ later
    · rename_i record parsed
      exact found t d record later current.symm parsed meets

omit [DatePlatform] in
theorem put_keeps (strict : Bool) (invariant : outbox.Invariant t) {expected : Option Nat}
    {record : UsageOutboxRecord Json} (settled : record.status ≠ .pending → Settled t recordId)
    (current : (t.table (outbox.key recordId)).map Versioned.version = expected)
    (follows : ∀ d, t.table (outbox.key recordId) = some d → Follows strict d.record record.stringify)
    (recordIds : List JsString) :
    let next : OutboxState :=
      { t with table := t.table.put (outbox.key recordId) ⟨expected.getD 0 + 1, record.stringify⟩, recordIds }
    outbox.Invariant next ∧ Evolves strict t next := by
  refine ⟨⟨fun other d at_ open_ => ?_, ?_⟩, ?_, List.Subset.refl _⟩
  · dsimp only at at_
    by_cases here : outbox.key other = outbox.key recordId
    · have same : other = recordId := congrArg DocumentKey.recordId here
      rw [here, Documents.put_self] at at_
      obtain rfl := Option.some.inj at_
      rw [same]
      exact settled open_
    · rw [Documents.put_other _ _ here] at at_
      exact invariant.settled other d at_ open_
  · intro key d at_
    dsimp only at at_
    by_cases here : key = outbox.key recordId
    · rw [here, Documents.put_self] at at_
      obtain rfl := Option.some.inj at_
      exact Json.roundTrip_roundTrip _
    · rw [Documents.put_other _ _ here] at at_
      exact invariant.printed key d at_
  · cases before : t.table (outbox.key recordId) with
    | none => exact Later.create (Follows.refl strict) before _
    | some d =>
      rw [before] at current
      rw [← current]
      exact Later.put (Follows.refl strict) before (follows d before)

theorem safe_setRecord {expected : Option Nat} {record : UsageOutboxRecord Json}
    {next : SinkProgram}
    (settled : record.status ≠ .pending → Settled s recordId)
    (follows : ∀ t, Evolves strict s t → outbox.Invariant t →
      (t.table (outbox.key recordId)).map Versioned.version = expected → ∀ d, t.table
        (outbox.key recordId) = some d → Follows strict d.record record.stringify)
    (writes : ∀ t, Evolves strict s t → (∃ d, t.table (outbox.key recordId) = some d ∧ d.record = record.stringify) →
      (outbox.contract strict).Safe kind next outputs t)
    (throws : ∀ cause, (outbox.contract strict).Safe kind (thrown cause) outputs s) :
    (outbox.contract strict).Safe kind (setRecord recordId expected record next thrown) outputs s := by
  unfold setRecord
  split
  · exact throws .other
  · refine safe_query (fun t later invariant meets => ?_) (throws .other)
    simp only [perform]
    rcases compareAndSet_cases (fun _ => true) t.table (outbox.key recordId) expected record.stringify with
      ⟨e, refused⟩ | ⟨_, current, written⟩
    · rw [refused]
      refine ⟨invariant, Evolves.refl strict t, ?_⟩
      cases e with
      | conflict => exact (throws .conflict).stable _ later
      | invalid | query => exact (throws .other).stable _ later
    · rw [written]
      obtain ⟨kept, evolves⟩ := put_keeps strict invariant (fun open_ => (settled open_).later later) current
        (follows t later invariant current) (if t.recordIds.contains recordId then t.recordIds else t.recordIds ++ [recordId])
      exact ⟨kept, evolves, writes _ (later.trans evolves) ⟨_, Documents.put_self .., rfl⟩⟩

/-! ### The programs keep the contract -/

/-- A checked record is the JSON that it was checked from, with its receipt parsed. -/
theorem usageOutboxRecord_reads {value : UsageOutboxRecord Json} {record : UsageOutboxRecord NormalizedUsageReceipt}
    (checked : usageOutboxRecord value = some record) :
    parseNormalizedUsageReceipt value.entry.receipt = .ok record.entry.receipt ∧ record.toJson = value := by
  unfold usageOutboxRecord at checked
  obtain ⟨entry, entered, checked⟩ := Option.bind_eq_some_iff.mp checked
  obtain ⟨_, same⟩ := guard_bind.mp checked
  obtain rfl := Option.some.inj same
  unfold usageOutboxEntry at entered
  obtain ⟨receipt, parsed, entered⟩ := Option.bind_eq_some_iff.mp entered
  obtain ⟨_, entered⟩ := guard_bind.mp entered
  obtain ⟨_, same⟩ := guard_bind.mp entered
  obtain rfl := Option.some.inj same
  have read : parseNormalizedUsageReceipt value.entry.receipt = .ok receipt := by
    cases read : parseNormalizedUsageReceipt value.entry.receipt with
    | error e =>
      rw [read] at parsed
      cases parsed
    | ok other =>
      rw [read] at parsed
      rw [Option.some.inj parsed]
  refine ⟨read, ?_⟩
  simp only [UsageOutboxRecord.toJson, parse_json read]

theorem safe_acknowledge {next : SinkProgram}
    (settled : Settled s recordId) (nexts : (outbox.contract strict).Safe kind next outputs s)
    (throws : ∀ cause, (outbox.contract strict).Safe kind (thrown cause) outputs s) (attempts : Nat) :
    (outbox.contract strict).Safe kind (acknowledge recordId next thrown attempts) outputs s := by
  induction attempts generalizing s with
  | zero => exact nexts
  | succ attempts ih =>
    unfold acknowledge
    refine safe_getRecord (fun t later => nexts.stable _ later) (fun t d record later found checked _ => ?_) (throws .other)
    have same := (usageOutboxRecord_reads checked).2
    dsimp only
    split
    · exact nexts.stable _ later
    · rename_i undelivered
      have safe := ih (settled.later later) (nexts.stable _ later) fun cause => (throws cause).stable _ later
      refine safe_setRecord (fun _ => settled.later later) (fun u after invariant current e at_ => ?_)
        (fun u after _ => ?_) fun cause => ?_
      · obtain rfl := after.unchanged found current at_
        refine .of_entry (congrArg (fun r => r.entry.receipt) same) (invariant.printed _ _ at_)
          (congrArg (fun r => r.entry.enqueuedAt) same) (fun _ => rfl) fun _ _ => ?_
        intro pending
        cases pending
      · exact nexts.stable _ (later.trans after)
      · split
        · exact (throws cause).stable _ later
        · exact safe

theorem safe_failed {error : UsageFailure} {next : SinkProgram}
    (settled : error.retryable = false → Settled s recordId) (nexts : (outbox.contract strict).Safe kind next outputs s)
    (throws : ∀ cause, (outbox.contract strict).Safe kind (thrown cause) outputs s) (attempts : Nat) :
    (outbox.contract strict).Safe kind (failed recordId error next thrown attempts) outputs s := by
  induction attempts generalizing s with
  | zero => exact nexts
  | succ attempts ih =>
    unfold failed
    refine safe_getRecord (fun t later => nexts.stable _ later) (fun t d record later found checked meets => ?_) (throws .other)
    have same := (usageOutboxRecord_reads checked).2
    dsimp only
    split
    · exact nexts.stable _ later
    · rename_i undelivered
      have safe := ih (fun final => (settled final).later later) (nexts.stable _ later) fun cause => (throws cause).stable _ later
      refine safe_setRecord (fun open_ => ?_) (fun u after invariant current e at_ => ?_) (fun u after _ => ?_) fun cause => ?_
      · cases retryable : error.retryable with
        | false => exact (settled retryable).later later
        | true => simp [UsageOutboxRecord.toJson, retryable] at open_
      · obtain rfl := after.unchanged found current at_
        refine .of_entry (congrArg (fun r => r.entry.receipt) same) (invariant.printed _ _ at_)
          (congrArg (fun r => r.entry.enqueuedAt) same) (fun delivered => ?_) fun isStrict failed => ?_
        · exact (undelivered ((congrArg UsageOutboxRecord.status same).trans delivered)).elim
        · cases retryable : error.retryable with
          | false => simp [UsageOutboxRecord.toJson]
          | true =>
            have again := meets isStrict
            simp [retryable, failedAgain, found, failed] at again
      · exact nexts.stable _ (later.trans after)
      · split
        · exact (throws cause).stable _ later
        · exact safe

theorem safe_recordFailure {error : UsageFailure} {ended next : SinkProgram}
    (settled : error.retryable = false → Settled s recordId) (ends : (outbox.contract strict).Safe kind ended outputs s)
    (nexts : (outbox.contract strict).Safe kind next outputs s) :
    (outbox.contract strict).Safe kind (recordFailure recordId error ended next) outputs s := by
  unfold recordFailure
  split
  · trivial
  · apply safe_failed settled
    · split
      · exact ends
      · exact nexts
    · intro _
      trivial

theorem safe_enqueue {value : UsageOutboxEntry Json} {next thrown : SinkProgram} {receipt : NormalizedUsageReceipt}
    (which : value.receipt = receipt.json) (parsed : parseNormalizedUsageReceipt receipt.json = .ok receipt)
    (nexts : ∀ t, Evolves strict s t → outbox.Stored t receipt → (outbox.contract strict).Safe kind next outputs t)
    (throws : (outbox.contract strict).Safe kind thrown outputs s) :
    (outbox.contract strict).Safe kind (enqueue value next thrown) outputs s := by
  unfold enqueue
  split
  · exact throws
  · rename_i record checked
    have read := (usageOutboxRecord_reads checked).1
    rw [which, parsed] at read
    obtain same : receipt = record.entry.receipt := Except.ok.inj read
    -- A document that is there has the content of the receipt already.
    have settle (t : OutboxState) (later : Evolves strict s t) (d : Versioned (UsageOutboxRecord Json))
        (current : UsageOutboxRecord NormalizedUsageReceipt)
        (found : t.table (outbox.key record.entry.receipt.usageReceiptId) = some d)
        (held : usageOutboxRecord d.record = some current) :
        (outbox.contract strict).Safe kind
          (if jsonValuesEqual current.entry.receipt.json record.entry.receipt.json then next else thrown) outputs t := by
      split
      · rename_i equal
        refine nexts t later ⟨d, same ▸ found, .inr ?_⟩
        rw [← congrArg (fun r => r.entry.receipt) (usageOutboxRecord_reads held).2, same]
        exact equal
      · exact throws.stable _ later
    refine safe_getRecord (fun t later => ?_) (fun t d current later found held _ => settle t later d current found held) throws
    refine safe_setRecord
      (fun open_ => (open_ (congrArg UsageOutboxRecord.status (usageOutboxRecord_reads checked).2)).elim)
      (fun u after invariant current d at_ => ?_)
      (fun u after ⟨d, at_, written⟩ => ?_) fun cause => ?_
    · rw [at_] at current
      cases current
    · refine nexts u (later.trans after) ⟨d, same ▸ at_, .inl ?_⟩
      rw [written, same]
      rfl
    · cases cause with
      | other => exact throws.stable _ later
      | conflict =>
        refine safe_getRecord (fun u after => throws.stable _ (later.trans after)) (fun u d current after found held _ => ?_)
          (throws.stable _ later)
        exact settle u (later.trans after) d current found held

theorem safe_flushed (delivered pending : Nat) :
    (outbox.contract strict).Safe kind (.emit (.flushed delivered pending) .done) [] s := by
  intro t _ _
  refine ⟨fun receipt member => ?_, trivial⟩
  simp at member

omit [DatePlatform] in
theorem settle_keeps (strict : Bool) (invariant : outbox.Invariant t) (request : SettleRequest) (outcome : SettleOutcome) :
    let next := (outbox.perform (.settle request outcome) t).1
    outbox.Invariant next ∧ Evolves strict t next ∧
      (outcome.isFinal = true → Settled next request.receipt.usageReceiptId) := by
  have evolves : Evolves strict t (outbox.perform (.settle request outcome) t).1 :=
    ⟨Later.refl (Follows.refl strict) _, List.subset_append_left _ _⟩
  refine ⟨⟨fun recordId d at_ open_ => ?_, invariant.printed⟩, evolves, fun final => ?_⟩
  · exact (invariant.settled recordId d at_ open_).later evolves
  · exact ⟨_, List.mem_append_right _ List.mem_cons_self, rfl, final⟩

theorem safe_deliver (total delivered : Nat) (entries : List (UsageOutboxEntry NormalizedUsageReceipt)) :
    (outbox.contract strict).Safe kind (deliver total delivered entries) [] s := by
  induction entries generalizing delivered s with
  | nil => exact safe_flushed delivered (total - delivered)
  | cons entry rest ih =>
    intro reading _ t later invariant _
    obtain ⟨kept, evolves, settled⟩ := settle_keeps strict invariant
      ⟨entry.receipt.turnId, entry.receipt, requestStatus entry.receipt⟩ reading.settle
    refine ⟨kept, evolves, ?_⟩
    have retried {u : OutboxState} : (outbox.contract strict).Safe kind (recordFailure entry.receipt.usageReceiptId deliveryFailed
        (.emit (.flushed delivered (total - delivered)) .done) (deliver total delivered rest)) [] u :=
      safe_recordFailure (fun final => by cases final) (safe_flushed _ _) (ih delivered)
    dsimp only
    cases ends : reading.settle with
    | accepted =>
      rw [ends] at settled
      dsimp only
      split
      · exact retried
      · exact safe_acknowledge (settled rfl) (ih (delivered + 1)) (fun _ => retried) 4
    | rejected error =>
      rw [ends] at settled
      refine safe_recordFailure (fun final => settled ?_) (safe_flushed _ _) (ih delivered)
      simp [SettleOutcome.isFinal, final]
    | broken => exact retried

theorem verified : (outbox.contract strict).Verified := by
  intro label outputs s empty
  obtain rfl : outputs = [] := empty
  cases label with
  | capture sink value =>
    simp only [sinkCode, sinkBody]
    split
    · trivial
    · rename_i receipt parsed
      intro reading _
      refine safe_enqueue rfl (by rw [parse_json parsed]; exact parsed) (fun t later stored => ?_) trivial
      intro u after invariant
      refine ⟨rfl, by simp [contract], fun _ v last _ => ⟨fun other member => ?_, trivial⟩⟩
      simp only [List.nil_append, List.mem_singleton, SinkOutput.captured.injEq] at member
      rw [member]
      exact stored.later (after.trans last)
  | flush sink limit =>
    simp only [sinkCode, sinkBody]
    refine safe_query (fun t later invariant meets => ⟨invariant, Evolves.refl strict t, ?_⟩) trivial
    split
    · trivial
    · exact safe_deliver ..

/-! ### Runs -/

abbrev Sinks := System OutboxState OutboxOp OutboxReply OutboxReading SinkLabel SinkOutput SinkKind

def failsAgain (outbox : PostgresAIRuntimeUsageOutbox) (s : Sinks) : Action OutboxReading SinkLabel → Bool
  | .start _ => false
  | .advance i _ =>
    match s.processes[i]? with
    | some ⟨_, .call op _, _⟩ => outbox.failedAgain op s.shared
    | _ => false

def respectsFailures (outbox : PostgresAIRuntimeUsageOutbox) (s : Sinks) : List (Action OutboxReading SinkLabel) → Bool
  | [] => true
  | action :: rest => !outbox.failsAgain s action && outbox.respectsFailures (outbox.sinkCode.step s action) rest

theorem allMeet {s : Sinks} {actions : List (Action OutboxReading SinkLabel)}
    (respects : strict = true → outbox.respectsFailures s actions = true) : (outbox.contract strict).AllMeet s actions := by
  induction actions generalizing s with
  | nil => trivial
  | cons action rest ih =>
    have parts (isStrict : strict = true) : outbox.failsAgain s action = false ∧
        outbox.respectsFailures (outbox.sinkCode.step s action) rest = true := by
      simpa [respectsFailures] using respects isStrict
    refine ⟨?_, ih fun isStrict => (parts isStrict).2⟩
    cases action with
    | start label => trivial
    | advance i reading =>
      intro p found
      refine ⟨trivial, fun op next program isStrict => ?_⟩
      obtain ⟨kind, _, outputs⟩ := p
      subst program
      have first := (parts isStrict).1
      rw [failsAgain, found] at first
      exact first

theorem respectsFailures_append {s : Sinks} {first later : List (Action OutboxReading SinkLabel)} :
    outbox.respectsFailures s (first ++ later) =
      (outbox.respectsFailures s first && outbox.respectsFailures (outbox.sinkCode.run s first) later) := by
  induction first generalizing s with
  | nil => rfl
  | cons action rest ih => simp only [List.cons_append, respectsFailures, ih, Bool.and_assoc, Code.run, List.foldl_cons]

theorem run_evolves {s : Sinks} (holds : (outbox.contract strict).Holds s) {actions : List (Action OutboxReading SinkLabel)}
    (respects : strict = true → outbox.respectsFailures s actions = true) :
    (outbox.contract strict).Holds (outbox.sinkCode.run s actions) ∧
      Evolves strict s.shared (outbox.sinkCode.run s actions).shared := by
  obtain ⟨last, changes⟩ := holds.run verified (allMeet respects)
  refine ⟨last, ?_⟩
  generalize (outbox.sinkCode.run s actions).shared = t at changes
  induction changes with
  | refl => exact Evolves.refl strict _
  | tail _ change evolves =>
    obtain ⟨_, _, next⟩ := change
    exact evolves.trans next

def noSinks : Sinks := ⟨⟨fun _ => none, [], []⟩, []⟩

omit [DatePlatform] in
theorem invariant_empty : outbox.Invariant noSinks.shared where
  settled recordId d found := by cases found
  printed key d found := by cases found

omit [DatePlatform] in
theorem mem_pendingRows {row : UsageOutboxRecord Json} (member : row ∈ outbox.pendingRows s) :
    row.status = .pending ∧ ∃ recordId d, s.table (outbox.key recordId) = some d ∧ d.record = row := by
  simp only [pendingRows, List.mem_map, List.mem_mergeSort, List.mem_filter, List.mem_filterMap, Option.map_eq_some_iff,
    beq_iff_eq] at member
  obtain ⟨_, ⟨⟨recordId, _, d, found, rfl⟩, status⟩, rfl⟩ := member
  exact ⟨status, recordId, d, found, rfl⟩

end PostgresAIRuntimeUsageOutbox

/-! ### What the outbox promises -/

namespace PostgresAIRuntimeUsageOutbox
variable (outbox : PostgresAIRuntimeUsageOutbox)

structure ReceiptsKept (s t : Sinks) : Prop where
  /-- A receipt whose capture has resolved stays, with its content. -/
  captured : ∀ p ∈ s.processes, ∀ receipt, .captured receipt ∈ p.outputs →
    ∃ d e, s.shared.table (outbox.key receipt.usageReceiptId) = some d ∧ IsContent d.record.entry.receipt receipt ∧
      t.shared.table (outbox.key receipt.usageReceiptId) = some e ∧ e.record.entry.receipt = d.record.entry.receipt ∧
      e.record.entry.enqueuedAt = d.record.entry.enqueuedAt
  /-- It is pending until a settlement was final. -/
  pending : ∀ recordId d, t.shared.table (outbox.key recordId) = some d → d.record.status ≠ .pending →
    Settled t.shared recordId
  delivered : ∀ recordId d, s.shared.table (outbox.key recordId) = some d → d.record.status = .delivered →
    ∃ e, t.shared.table (outbox.key recordId) = some e ∧ e.record.status = .delivered
  /-- The query of `pending` answers no receipt of another status. -/
  queried : ∀ row ∈ outbox.pendingRows t.shared, row.status = .pending

def FailedStays (s t : Sinks) : Prop :=
  ∀ recordId d, s.shared.table (outbox.key recordId) = some d → d.record.status = .failed →
    ∃ e, t.shared.table (outbox.key recordId) = some e ∧ e.record.status ≠ .pending

variable {outbox} [DatePlatform] {s : Sinks}

theorem holds_noSinks (strict : Bool) : (outbox.contract strict).Holds noSinks :=
  (outbox.contract strict).holds_start invariant_empty

theorem receiptsKept_of_holds {t : Sinks} (holds : (outbox.contract strict).Holds s)
    (after : (outbox.contract strict).Holds t) (evolves : Evolves strict s.shared t.shared) : outbox.ReceiptsKept s t where
  captured p member receipt output := by
    obtain ⟨d, found, content⟩ := holds.traces p member receipt output
    obtain ⟨e, later, _, _, follows⟩ := evolves.documents _ d found
    exact ⟨d, e, found, content, later, follows.receipt, follows.enqueuedAt⟩
  pending := after.invariant.settled
  delivered recordId d found status := by
    obtain ⟨e, later, _, _, follows⟩ := evolves.documents _ d found
    exact ⟨e, later, follows.delivered status⟩
  queried row member := (mem_pendingRows member).1

/-- Along every schedule captured receipts stay, and delivered ones stay delivered. -/
theorem receipts_kept (first later : List (Action OutboxReading SinkLabel)) :
    outbox.ReceiptsKept (outbox.sinkCode.run noSinks first) (outbox.sinkCode.run noSinks (first ++ later)) := by
  have lenient (s : Sinks) (actions : List (Action OutboxReading SinkLabel)) (strict : false = true) :
      outbox.respectsFailures s actions = true := by cases strict
  obtain ⟨before, _⟩ := run_evolves (holds_noSinks false) (lenient _ first)
  obtain ⟨after, evolves⟩ := run_evolves before (lenient _ later)
  rw [Code.run_append]
  exact receiptsKept_of_holds before after evolves

end PostgresAIRuntimeUsageOutbox

/-- Along every schedule in which no retryable failure is recorded for a receipt that has failed, captured receipts
stay, and both ends are final. -/
theorem usage_receipts_final [DatePlatform] (outbox : PostgresAIRuntimeUsageOutbox)
    (first later : List (Action OutboxReading SinkLabel))
    (respects : outbox.respectsFailures PostgresAIRuntimeUsageOutbox.noSinks (first ++ later) = true) :
    outbox.ReceiptsKept (outbox.sinkCode.run PostgresAIRuntimeUsageOutbox.noSinks first)
        (outbox.sinkCode.run PostgresAIRuntimeUsageOutbox.noSinks (first ++ later)) ∧
      outbox.FailedStays (outbox.sinkCode.run PostgresAIRuntimeUsageOutbox.noSinks first)
        (outbox.sinkCode.run PostgresAIRuntimeUsageOutbox.noSinks (first ++ later)) := by
  refine ⟨PostgresAIRuntimeUsageOutbox.receipts_kept first later, fun recordId d found status => ?_⟩
  rw [PostgresAIRuntimeUsageOutbox.respectsFailures_append, Bool.and_eq_true] at respects
  obtain ⟨before, _⟩ := PostgresAIRuntimeUsageOutbox.run_evolves (PostgresAIRuntimeUsageOutbox.holds_noSinks true)
    fun _ => respects.1
  obtain ⟨_, evolves⟩ := PostgresAIRuntimeUsageOutbox.run_evolves before fun _ => respects.2
  obtain ⟨e, after, _, _, follows⟩ := evolves.documents _ d found
  rw [Code.run_append]
  exact ⟨e, after, follows.failed rfl status⟩

/-! ### A failed receipt -/

def sampleUnavailable : Json := Json.object [("status", .str (js "unavailable"))]

def sampleIdentity (id : String) : Json := Json.object [("id", .str (js id)), ("index", .num (.ofNat 0))]

def sampleAttributed (id : Json) : Json :=
  Json.object [("id", id), ("source", .str (js "server_derived")), ("trust", .str (js "authoritative"))]

def sampleReceipt : Json := Json.object [
  ("version", .num (.ofNat 1)), ("usage_receipt_id", .str (js "receipt")), ("conversation_id", .str (js "conversation")),
  ("turn_id", .str (js "turn")), ("logical_request_id", .str (js "request")), ("trace_id", .str (js "trace")),
  ("attempt", sampleIdentity "attempt"), ("continuation", sampleIdentity "continuation"),
  ("provider_id", .str (js "provider")), ("model_id", .str (js "model")),
  ("attribution", Json.object [
    ("organization", sampleAttributed (.str (js "organization"))), ("project", sampleAttributed (.str (js "project"))),
    ("service_environment", sampleAttributed (.str (js "environment"))), ("known_user", sampleAttributed .null),
    ("session", sampleAttributed .null), ("automation", sampleAttributed .null)]),
  ("source", .str (js "provider")), ("terminal_status", .str (js "completed")),
  ("tokens", Json.object [
    ("input_tokens", sampleUnavailable), ("cached_input_tokens", sampleUnavailable), ("output_tokens", sampleUnavailable),
    ("reasoning_tokens", sampleUnavailable), ("total_tokens", sampleUnavailable)]),
  ("provider_cost", sampleUnavailable)]

def sampleOutbox : PostgresAIRuntimeUsageOutbox := ⟨js "tenant", js "assistant", by decide +kernel⟩

/-- Steps of one process, in which every query answers and `settle` ends in one way. -/
def sampleSteps (process count : Nat) (settle : SettleOutcome) : List (Action OutboxReading SinkLabel) :=
  List.replicate count (.advance process ⟨js "2026-01-01T00:00:00.000Z", settle, .none⟩)

def sampleRefusal : SettleOutcome := .rejected ⟨js "invalid_receipt", false⟩

def sampleCapture : List (Action OutboxReading SinkLabel) :=
  .start (.capture ⟨0, 25⟩ sampleReceipt) :: sampleSteps 0 7 .broken

def sampleStatus [DatePlatform] (actions : List (Action OutboxReading SinkLabel)) : Option UsageOutboxStatus :=
  ((sampleOutbox.sinkCode.run PostgresAIRuntimeUsageOutbox.noSinks actions).shared.table
    (sampleOutbox.key (js "receipt"))).map fun d => d.record.status

theorem not_failedStays [DatePlatform] {first later : List (Action OutboxReading SinkLabel)}
    (before : sampleStatus first = some .failed) (after : sampleStatus (first ++ later) = some .pending) :
    ¬sampleOutbox.FailedStays (sampleOutbox.sinkCode.run PostgresAIRuntimeUsageOutbox.noSinks first)
      (sampleOutbox.sinkCode.run PostgresAIRuntimeUsageOutbox.noSinks (first ++ later)) := by
  intro stays
  obtain ⟨d, found, failed⟩ := Option.map_eq_some_iff.mp before
  obtain ⟨e, later, status⟩ := stays (js "receipt") d found failed
  obtain ⟨f, found, pending⟩ := Option.map_eq_some_iff.mp after
  rw [later] at found
  rw [Option.some.inj found] at status
  exact status pending

/-- Two flushes settle the receipt. One is refused, and the other one delivers what has failed. -/
theorem usage_receipts_final_refused : ∃ _ : DatePlatform, ∃ first later,
    first = sampleCapture ++ .start (.flush ⟨1, 25⟩ 25) :: sampleSteps 2 4 .accepted ++ sampleSteps 1 9 sampleRefusal ∧
    later = sampleSteps 2 5 .accepted ∧ sampleStatus first = some .failed ∧
    sampleStatus (first ++ later) = some .delivered ∧
    sampleOutbox.ReceiptsKept (sampleOutbox.sinkCode.run PostgresAIRuntimeUsageOutbox.noSinks first)
        (sampleOutbox.sinkCode.run PostgresAIRuntimeUsageOutbox.noSinks (first ++ later)) ∧
      sampleOutbox.FailedStays (sampleOutbox.sinkCode.run PostgresAIRuntimeUsageOutbox.noSinks first)
        (sampleOutbox.sinkCode.run PostgresAIRuntimeUsageOutbox.noSinks (first ++ later)) := by
  let _ := isoDates
  have respects : sampleOutbox.respectsFailures PostgresAIRuntimeUsageOutbox.noSinks
      (sampleCapture ++ .start (.flush ⟨1, 25⟩ 25) :: sampleSteps 2 4 .accepted ++ sampleSteps 1 9 sampleRefusal ++
        sampleSteps 2 5 .accepted) = true := by decide +kernel
  have failed : sampleStatus (sampleCapture ++ .start (.flush ⟨1, 25⟩ 25) :: sampleSteps 2 4 .accepted ++
      sampleSteps 1 9 sampleRefusal) = some .failed := by decide +kernel
  have delivered : sampleStatus (sampleCapture ++ .start (.flush ⟨1, 25⟩ 25) :: sampleSteps 2 4 .accepted ++
      sampleSteps 1 9 sampleRefusal ++ sampleSteps 2 5 .accepted) = some .delivered := by decide +kernel
  exact ⟨isoDates, _, _, rfl, rfl, failed, delivered, usage_receipts_final sampleOutbox _ _ respects⟩

/-- Two flushes settle the receipt. One is refused; the other times out, and makes the failed receipt pending. -/
theorem failed_receipt_revived : ∃ _ : DatePlatform, ∃ first later,
    first = sampleCapture ++ .start (.flush ⟨1, 25⟩ 25) :: sampleSteps 2 4 .broken ++ sampleSteps 1 9 sampleRefusal ∧
    later = sampleSteps 2 5 .broken ∧ sampleStatus first = some .failed ∧ sampleStatus (first ++ later) = some .pending ∧
    ¬sampleOutbox.FailedStays (sampleOutbox.sinkCode.run PostgresAIRuntimeUsageOutbox.noSinks first)
      (sampleOutbox.sinkCode.run PostgresAIRuntimeUsageOutbox.noSinks (first ++ later)) := by
  let _ := isoDates
  have before : sampleStatus (sampleCapture ++ .start (.flush ⟨1, 25⟩ 25) :: sampleSteps 2 4 .broken ++
      sampleSteps 1 9 sampleRefusal) = some .failed := by decide +kernel
  have after : sampleStatus (sampleCapture ++ .start (.flush ⟨1, 25⟩ 25) :: sampleSteps 2 4 .broken ++
      sampleSteps 1 9 sampleRefusal ++ sampleSteps 2 5 .broken) = some .pending := by decide +kernel
  exact ⟨isoDates, _, _, rfl, rfl, before, after, not_failedStays before after⟩

end Handrail.Postgres

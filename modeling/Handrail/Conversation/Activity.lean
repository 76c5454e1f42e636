import Handrail.Conversation.Vocabulary
import Handrail.Js.Arrays
import Handrail.Js.Pattern
import Mathlib.Data.List.Perm.Basic

/-!
# Conversation activity

One activity record is kept for each conversation. Writers with clocks of their own deliver records in
any order, and each store keeps the record that `retainConversationActivity` chooses.
-/

namespace Handrail.Conversation
open Js

inductive ActivityTurnStatus where
  | idle
  | running
  | completed
  | error
deriving DecidableEq, Repr

/-- `ConversationActivityProgress` -/
structure ActivityProgress (number : Type) where
  completed : number
  total : number
  unit : Option JsString
deriving DecidableEq

/-- `ConversationActivityRecord`; a record that was not parsed yet has any number as its revision. -/
structure ActivityRecord (revision number : Type) where
  conversationId : JsString
  turnId : Option JsString
  turnRevision : Option revision
  turnStatus : ActivityTurnStatus
  unread : Bool
  updatedAt : Option JsString
  summary : Option JsString
  progress : Option (ActivityProgress number)
deriving DecidableEq

abbrev ActivityInput := ActivityRecord JsNumber JsNumber

abbrev ConversationActivityRecord := ActivityRecord PositiveSafeInteger (SafeInteger 0)

/-! ### Parsing -/

/-- The dates of the platform: `new Date(text).toISOString()`, `none` when `Date.parse(text)` is `NaN`. -/
class DatePlatform where
  isoString : JsString → Option JsString

def parseActivitySummary : Option JsString → Option (Option JsString)
  | none => some none
  | some value =>
    let summary := trim value
    if summary.length = 0 ∨ 240 < summary.length then none else some (some summary)

def parseActivityProgress :
    Option (ActivityProgress JsNumber) → Option (Option (ActivityProgress (SafeInteger 0)))
  | none => some none
  | some value => do
    let completed ← readSafeInteger 0 value.completed
    let total ← readSafeInteger 0 value.total
    guard (1 ≤ total.value ∧ completed.value ≤ total.value)
    let unit := value.unit.map trim
    guard (unit.all fun unit => unit.length ≠ 0 ∧ unit.length ≤ 64)
    return some { completed, total, unit }

def optional {α β : Type} (read : α → Option β) : Option α → Option (Option β)
  | none => some none
  | some a => (read a).map some

/-- `parseConversationActivityRecord`, `none` when it throws. -/
def parseConversationActivityRecord [DatePlatform] (input : ActivityInput) : Option ConversationActivityRecord := do
  let conversationId := trim input.conversationId
  guard (conversationId.length ≠ 0 ∧ conversationId.length ≤ 256)
  let updatedAt ← optional DatePlatform.isoString input.updatedAt
  guard (input.updatedAt.all fun text => text.length ≤ 64)
  guard (input.turnId.all fun turnId => (trim turnId).length ≠ 0 ∧ turnId.length ≤ 256)
  guard (input.turnRevision.isSome → input.turnId.isSome)
  let turnRevision ← optional (readSafeInteger 1) input.turnRevision
  let summary ← parseActivitySummary input.summary
  let progress ← parseActivityProgress input.progress
  guard (progress.isSome → summary.isSome)
  return {
    conversationId, turnRevision, updatedAt, summary, progress
    turnId := input.turnId
    turnStatus := input.turnStatus
    unread := input.unread }

/-! ### Retention -/

/-- `turnStatus === "completed" || turnStatus === "error"` -/
def ActivityRecord.isTerminal {revision number : Type} (r : ActivityRecord revision number) : Bool :=
  r.turnStatus == .completed || r.turnStatus == .error

/-- `left && right && left > right` -/
def stampedAfter (left right : Option JsString) : Bool :=
  match left, right with
  | some left, some right => left.length != 0 && right.length != 0 && !decide (left ≤ right)
  | _, _ => false

/-- `left !== undefined && right !== undefined && left > right` -/
def revisionAfter (left right : Option PositiveSafeInteger) : Bool :=
  match left, right with
  | some left, some right => decide (right.value < left.value)
  | _, _ => false

def retainConversationActivity (current : Option ConversationActivityRecord)
    (incoming : ConversationActivityRecord) : ConversationActivityRecord :=
  match current with
  | none => incoming
  | some current =>
    if revisionAfter current.turnRevision incoming.turnRevision then current
    else if current.turnId.isSome ∧ current.turnId = incoming.turnId then
      if current.isTerminal then
        if incoming.turnStatus = current.turnStatus ∧ current.unread ∧ !incoming.unread then
          { current with unread := false }
        else current
      else if stampedAfter current.updatedAt incoming.updatedAt then current
      else incoming
    else incoming

def retainAll (current : Option ConversationActivityRecord) (delivered : List ConversationActivityRecord) :
    Option ConversationActivityRecord :=
  delivered.foldl (fun current incoming => some (retainConversationActivity current incoming)) current

/-! ### Stores -/

/-- The records of `InMemoryConversationActivityStore`, by conversation. -/
abbrev ActivityIndex := JsString → Option ConversationActivityRecord

/-- `InMemoryConversationActivityStore.upsert` of a parsed record. -/
def ActivityIndex.upsert (index : ActivityIndex) (record : ConversationActivityRecord) : ActivityIndex :=
  fun key => if key = record.conversationId then some (retainConversationActivity (index key) record) else index key

/-- `InMemoryConversationActivityStore.replace` by parsed records, `none` when a conversation is listed twice. -/
def ActivityIndex.replace (index : ActivityIndex) (records : List ConversationActivityRecord) : Option ActivityIndex :=
  if (records.map ActivityRecord.conversationId).Nodup then
    some fun key => (records.find? fun record => record.conversationId == key).map
      (retainConversationActivity (index key))
  else none

/-! ### Convergence -/

structure TurnRecords (records : List ConversationActivityRecord) : Prop where
  identified : ∀ r ∈ records, r.turnId.isSome = true ∧ r.turnRevision.isSome = true
  sameTurn : ∀ r ∈ records, ∀ s ∈ records, r.turnId = s.turnId ↔ r.turnRevision = s.turnRevision
  oneEnd : ((records.filter ActivityRecord.isTerminal).map ActivityRecord.turnId).Nodup

def IsLatest (records : List ConversationActivityRecord) (r : ConversationActivityRecord) : Prop :=
  ∀ s ∈ records, revisionAfter s.turnRevision r.turnRevision = false

structure Settled (records : List ConversationActivityRecord) (r : ConversationActivityRecord) : Prop where
  turn : ∃ s ∈ records, s.turnId = r.turnId
  latest : IsLatest records r
  ended : (∃ s ∈ records, s.turnId = r.turnId ∧ s.isTerminal = true) → r.isTerminal = true

def EndStampedLast (records : List ConversationActivityRecord) : Prop :=
  ∀ t ∈ records, IsLatest records t → t.isTerminal = true →
    ∀ r ∈ records, r.turnId = t.turnId → r.isTerminal = false → stampedAfter r.updatedAt t.updatedAt = false

namespace TurnRecords
variable {records : List ConversationActivityRecord} {c r t : ConversationActivityRecord}

theorem perm (turns : TurnRecords records) {delivered : List ConversationActivityRecord}
    (order : delivered.Perm records) : TurnRecords delivered where
  identified r member := turns.identified r (order.subset member)
  sameTurn r member s inside := turns.sameTurn r (order.subset member) s (order.subset inside)
  oneEnd := (((order.filter _).map _).nodup_iff).mpr turns.oneEnd

theorem sublist (turns : TurnRecords records) {fewer : List ConversationActivityRecord} (sub : fewer.Sublist records) :
    TurnRecords fewer where
  identified r member := turns.identified r (sub.subset member)
  sameTurn r member s inside := turns.sameTurn r (sub.subset member) s (sub.subset inside)
  oneEnd := turns.oneEnd.sublist ((sub.filter _).map _)

theorem running_after (turns : TurnRecords (c :: r :: records)) (same : c.turnId = r.turnId)
    (ended : c.isTerminal = true) : r.isTerminal = false := by
  by_contra both
  have distinct := turns.oneEnd
  rw [Bool.not_eq_false] at both
  rw [List.filter_cons_of_pos ended, List.filter_cons_of_pos both, List.map_cons, List.map_cons, same] at distinct
  exact (List.nodup_cons.mp distinct).1 List.mem_cons_self

end TurnRecords

section
variable {records : List ConversationActivityRecord} {c r t : ConversationActivityRecord}

theorem revisionAfter_trans {a b c : Option PositiveSafeInteger} (known : b.isSome = true)
    (ab : revisionAfter a b = false) (bc : revisionAfter b c = false) : revisionAfter a c = false := by
  obtain ⟨b, rfl⟩ := Option.isSome_iff_exists.mp known
  cases a <;> cases c <;> simp_all [revisionAfter]
  omega

theorem revisionAfter_asymm {a b : Option PositiveSafeInteger} (ab : revisionAfter a b = true) :
    revisionAfter b a = false := by
  cases a <;> cases b <;> simp_all [revisionAfter]
  omega

theorem revisionAfter_antisymm {a b : Option PositiveSafeInteger} (knownA : a.isSome = true) (knownB : b.isSome = true)
    (ab : revisionAfter a b = false) (ba : revisionAfter b a = false) : a = b := by
  obtain ⟨⟨a, _, _⟩, rfl⟩ := Option.isSome_iff_exists.mp knownA
  obtain ⟨⟨b, _, _⟩, rfl⟩ := Option.isSome_iff_exists.mp knownB
  simp only [revisionAfter, decide_eq_false_iff_not, not_lt] at ab ba
  simp only [Option.some.injEq, SafeInteger.mk.injEq]
  omega

theorem retain_cases (turns : TurnRecords (c :: r :: records)) :
    (retainConversationActivity (some c) r = c ∧ revisionAfter r.turnRevision c.turnRevision = false) ∨
    (retainConversationActivity (some c) r = r ∧ revisionAfter c.turnRevision r.turnRevision = false) := by
  unfold retainConversationActivity
  simp only
  split
  · rename_i later
    exact .inl ⟨rfl, revisionAfter_asymm later⟩
  · rename_i notLater
    rw [Bool.not_eq_true] at notLater
    split
    · rename_i same
      have equal := (turns.sameTurn c (by simp) r (by simp)).mp same.2
      have back : revisionAfter r.turnRevision c.turnRevision = false := by rw [← equal] at notLater ⊢; exact notLater
      split
      · rename_i ended
        have running := turns.running_after same.2 ended
        split
        · rename_i again
          have terminal : r.isTerminal = true := by
            rw [ActivityRecord.isTerminal, again.1]
            exact ended
          rw [terminal] at running
          cases running
        · exact .inl ⟨rfl, back⟩
      · split
        · exact .inl ⟨rfl, back⟩
        · exact .inr ⟨rfl, notLater⟩
    · exact .inr ⟨rfl, notLater⟩

theorem retain_end (turns : TurnRecords (t :: r :: records)) (ended : t.isTerminal = true)
    (notLater : revisionAfter r.turnRevision t.turnRevision = false) :
    retainConversationActivity (some t) r = t := by
  have known := turns.identified t (by simp)
  rcases retain_cases turns with ⟨kept, _⟩ | ⟨replaced, earlier⟩
  · exact kept
  · have same := (turns.sameTurn t (by simp) r (by simp)).mpr
      (revisionAfter_antisymm known.2 (turns.identified r (by simp)).2 earlier notLater)
    have running := turns.running_after same ended
    have other : ¬r.turnStatus = t.turnStatus := by
      intro again
      rw [ActivityRecord.isTerminal, again] at running
      exact Bool.false_ne_true (running.symm.trans ended)
    unfold retainConversationActivity
    simp only [earlier, Bool.false_eq_true, ↓reduceIte, same, ended, other, false_and]
    exact if_pos ⟨same ▸ known.1, trivial⟩

theorem retain_by_end (turns : TurnRecords (c :: t :: records)) (ended : t.isTerminal = true)
    (notLater : revisionAfter c.turnRevision t.turnRevision = false)
    (stamps : c.turnId = t.turnId → stampedAfter c.updatedAt t.updatedAt = false) :
    retainConversationActivity (some c) t = t := by
  unfold retainConversationActivity
  simp only [notLater, Bool.false_eq_true, ↓reduceIte]
  split
  · rename_i same
    split
    · rename_i before
      have running := turns.running_after same.2 before
      rw [ended] at running
      cases running
    · rw [stamps same.2]
      rfl
  · rfl

theorem retainAll_cons (current : Option ConversationActivityRecord) (r : ConversationActivityRecord)
    (rest : List ConversationActivityRecord) :
    retainAll current (r :: rest) = retainAll (some (retainConversationActivity current r)) rest := rfl

theorem retainAll_latest (turns : TurnRecords (c :: records)) :
    ∃ r ∈ c :: records, retainAll (some c) records = some r ∧ IsLatest (c :: records) r := by
  induction records generalizing c with
  | nil =>
    refine ⟨c, List.mem_cons_self, rfl, fun s member => ?_⟩
    rw [List.mem_singleton.mp member]
    cases c.turnRevision <;> simp [revisionAfter]
  | cons x rest ih =>
    rw [retainAll_cons]
    -- The record that one delivery keeps stands for both of them.
    have next (kept dropped : ConversationActivityRecord) (order : [kept, dropped].Perm [c, x])
        (earlier : revisionAfter dropped.turnRevision kept.turnRevision = false) :
        ∃ r ∈ c :: x :: rest, retainAll (some kept) rest = some r ∧ IsLatest (c :: x :: rest) r := by
      have order : (kept :: dropped :: rest).Perm (c :: x :: rest) := order.append_right rest
      have fewer : (kept :: rest).Sublist (kept :: dropped :: rest) := (List.sublist_cons_self dropped rest).cons_cons kept
      have both := turns.perm order
      obtain ⟨r, member, same, latest⟩ := ih (both.sublist fewer)
      refine ⟨r, order.subset (fewer.subset member), same, fun s inside => ?_⟩
      rcases List.mem_cons.mp (order.symm.subset inside) with rfl | inside
      · exact latest s List.mem_cons_self
      · rcases List.mem_cons.mp inside with rfl | inside
        · exact revisionAfter_trans (both.identified kept (by simp)).2 earlier (latest kept List.mem_cons_self)
        · exact latest s (List.mem_cons_of_mem _ inside)
    have two : TurnRecords [c, x] := turns.sublist (by simp)
    rcases retain_cases two with ⟨kept, earlier⟩ | ⟨replaced, earlier⟩
    · rw [kept]
      exact next c x (.refl _) earlier
    · rw [replaced]
      exact next x c (.swap ..) earlier

/-- Deliveries leave the end of the latest turn, if no record of that turn is stamped after it. -/
theorem retainAll_end (turns : TurnRecords (c :: records)) (member : t ∈ c :: records) (ended : t.isTerminal = true)
    (latest : IsLatest (c :: records) t)
    (stamps : ∀ r ∈ c :: records, r.turnId = t.turnId → r.isTerminal = false → stampedAfter r.updatedAt t.updatedAt = false) :
    retainAll (some c) records = some t := by
  induction records generalizing c with
  | nil => rw [List.mem_singleton.mp member, retainAll, List.foldl_nil]
  | cons x rest ih =>
    rw [retainAll_cons]
    have two : TurnRecords [c, x] := turns.sublist (by simp)
    have next (kept dropped : ConversationActivityRecord) (order : [kept, dropped].Perm [c, x])
        (inside : t ∈ kept :: rest) : retainAll (some kept) rest = some t := by
      have order : (kept :: dropped :: rest).Perm (c :: x :: rest) := order.append_right rest
      have fewer : (kept :: rest).Sublist (kept :: dropped :: rest) := (List.sublist_cons_self dropped rest).cons_cons kept
      have known {s : ConversationActivityRecord} (here : s ∈ kept :: rest) : s ∈ c :: x :: rest :=
        order.subset (fewer.subset here)
      exact ih ((turns.perm order).sublist fewer) inside (fun s here => latest s (known here))
        fun r here => stamps r (known here)
    rcases List.mem_cons.mp member with rfl | later
    · rw [retain_end two ended (latest x (by simp))]
      exact next t x (.refl _) List.mem_cons_self
    · rcases List.mem_cons.mp later with rfl | later
      · have notLater := latest c List.mem_cons_self
        have stamped (same : c.turnId = t.turnId) : stampedAfter c.updatedAt t.updatedAt = false := by
          refine stamps c List.mem_cons_self same ?_
          exact (two.perm (.swap ..)).running_after same.symm ended
        rw [retain_by_end two ended notLater stamped]
        exact next t c (.swap ..) List.mem_cons_self
      · rcases retain_cases two with ⟨kept, _⟩ | ⟨replaced, _⟩
        · rw [kept]
          exact next c x (.refl _) (List.mem_cons_of_mem _ later)
        · rw [replaced]
          exact next x c (.swap ..) (List.mem_cons_of_mem _ later)

theorem retain_stamped (same : r.turnId = t.turnId) (known : r.turnId.isSome = true) (running : r.isTerminal = false)
    (stamped : stampedAfter r.updatedAt t.updatedAt = true) : retainConversationActivity (some r) t = r := by
  unfold retainConversationActivity
  simp only [running, stamped, Bool.false_eq_true, ↓reduceIte]
  split
  · rfl
  · exact if_pos ⟨known, same⟩

/-- Any order of delivery leaves the latest turn with its end exactly when that end is not stamped before
another record of its turn. -/
theorem activity_converges (turns : TurnRecords records) :
    (∀ delivered, delivered.Perm records → delivered ≠ [] →
      ∃ r, retainAll none delivered = some r ∧ Settled records r) ↔ EndStampedLast records := by
  constructor
  · intro converges t inside latest ended r member same running
    by_contra stamped
    rw [Bool.not_eq_false] at stamped
    have different : t ≠ r := by
      rintro rfl
      exact Bool.false_ne_true (running.symm.trans ended)
    -- The end arrives after the record that is stamped later, and before all the others.
    have order : (r :: t :: (records.erase r).erase t).Perm records :=
      (List.Perm.cons r (List.perm_cons_erase ((List.mem_erase_of_ne different).mpr inside)).symm).trans
        (List.perm_cons_erase member).symm
    obtain ⟨x, last, settled⟩ := converges _ order (List.cons_ne_nil _ _)
    have all := turns.perm order
    have fewer : (r :: (records.erase r).erase t).Sublist (r :: t :: (records.erase r).erase t) :=
      (List.sublist_cons_self ..).cons_cons r
    obtain ⟨y, among, reached, _⟩ := retainAll_latest (all.sublist fewer)
    rw [retainAll_cons, retainAll_cons, show retainConversationActivity none r = r from rfl,
      retain_stamped same (turns.identified r member).1 running stamped, reached] at last
    obtain rfl := Option.some.inj last
    have known : y ∈ records := order.subset (fewer.subset among)
    have turn : t.turnId = y.turnId := (turns.sameTurn t inside y known).mpr
      (revisionAfter_antisymm (turns.identified t inside).2 (turns.identified y known).2 (settled.latest t inside)
        (latest y known))
    have end_ := settled.ended ⟨t, inside, turn, ended⟩
    rcases List.mem_cons.mp among with rfl | rest
    · exact Bool.false_ne_true (running.symm.trans end_)
    · have pair : [t, y].Sublist (r :: t :: (records.erase r).erase t) :=
        ((List.singleton_sublist.mpr rest).cons_cons t).cons r
      exact Bool.false_ne_true (((all.sublist pair).running_after turn ended).symm.trans end_)
  · intro last delivered order nonempty
    have all := turns.perm order
    obtain ⟨c, rest, rfl⟩ := List.exists_cons_of_ne_nil nonempty
    obtain ⟨r, member, reached, latest⟩ := retainAll_latest all
    have known : r ∈ records := order.subset member
    have above : IsLatest records r := fun s inside => latest s (order.symm.subset inside)
    refine ⟨r, reached, ⟨r, known, rfl⟩, above, ?_⟩
    rintro ⟨t, inside, same, ended⟩
    have revision := (turns.sameTurn t inside r known).mp same
    have latestEnd : IsLatest records t := fun s member => revision ▸ above s member
    have end_ := retainAll_end all (order.symm.subset inside) ended
      (fun s member => latestEnd s (order.subset member)) fun r member => last t inside latestEnd ended r (order.subset member)
    rw [reached] at end_
    rw [Option.some.inj end_]
    exact ended

end

@[reducible] def isoDates : DatePlatform := ⟨fun text => (readTimestamp text).map fun _ => text⟩

def sampleActivity (status : ActivityTurnStatus) (time : String) : ActivityInput where
  conversationId := js "conversation"
  turnId := some (js "turn")
  turnRevision := some (.ofNat 2)
  turnStatus := status
  unread := false
  updatedAt := some (js time)
  summary := none
  progress := none

def sampleRecord (status : ActivityTurnStatus) (time : String) : ConversationActivityRecord where
  conversationId := js "conversation"
  turnId := some (js "turn")
  turnRevision := some ⟨2, by decide, by decide⟩
  turnStatus := status
  unread := false
  updatedAt := some (js time)
  summary := none
  progress := none

theorem sampleRecords_turns (running completed : String) :
    TurnRecords [sampleRecord .running running, sampleRecord .completed completed] where
  identified := by simp [sampleRecord]
  sameTurn := by simp [sampleRecord]
  oneEnd := by simp [sampleRecord, ActivityRecord.isTerminal]

/-- A completion that is stamped after its turn's running record settles the turn in either order. -/
theorem activity_converges_completed : ∃ records, TurnRecords records ∧
    records = [sampleRecord .running "2026-01-01T00:00:05.000Z", sampleRecord .completed "2026-01-01T00:00:10.000Z"] ∧
    ∀ delivered, delivered.Perm records → delivered ≠ [] → ∃ r, retainAll none delivered = some r ∧ Settled records r := by
  refine ⟨_, sampleRecords_turns _ _, rfl, (activity_converges (sampleRecords_turns _ _)).mpr ?_⟩
  intro t inside _ ended r member _ running
  simp only [List.mem_cons, List.not_mem_nil, or_false] at inside member
  rcases inside with rfl | rfl
  · cases ended
  · rcases member with rfl | rfl
    · decide +kernel
    · cases running

/-- A writer whose clock is five seconds ahead: its running record hides the completion for ever. -/
theorem early_completion_hidden : ∃ _ : DatePlatform, ∃ records,
    [sampleActivity .running "2026-01-01T00:00:10.000Z", sampleActivity .completed "2026-01-01T00:00:05.000Z"].mapM
      parseConversationActivityRecord = some records ∧
    TurnRecords records ∧ ∃ r, retainAll none records = some r ∧ ¬Settled records r := by
  let _ := isoDates
  let running := sampleRecord .running "2026-01-01T00:00:10.000Z"
  let completed := sampleRecord .completed "2026-01-01T00:00:05.000Z"
  refine ⟨isoDates, [running, completed], by decide +kernel, sampleRecords_turns _ _, running, by decide +kernel, ?_⟩
  intro settled
  have ended := settled.ended ⟨completed, by simp, rfl, rfl⟩
  cases ended

end Handrail.Conversation

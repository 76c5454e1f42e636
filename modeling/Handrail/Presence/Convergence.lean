import Handrail.Presence.LiveDelivery

/-!
# Hubs converge

When no two publishes get one identity, a hub still remembers what comes to it again, and the hubs process the envelopes of a
session in one order that leads from older to newer records, then every hub ends with the same records.
-/

namespace Handrail.Presence
open Js Conversation

/-- `localeCompare` orders texts, and tells the keys of records apart. -/
class LawfulCollation [Collation] : Prop where
  total : ∀ a b : JsString, Collation.localeCompare a b ≤ 0 ∨ Collation.localeCompare b a ≤ 0
  trans : ∀ a b c : JsString, Collation.localeCompare a b ≤ 0 → Collation.localeCompare b c ≤ 0 →
    Collation.localeCompare a c ≤ 0
  antisymm : ∀ r s : PresenceRecord, Collation.localeCompare (getPresenceRecordKey r) (getPresenceRecordKey s) ≤ 0 →
    Collation.localeCompare (getPresenceRecordKey s) (getPresenceRecordKey r) ≤ 0 →
    getPresenceRecordKey r = getPresenceRecordKey s

namespace PresenceWorld
variable {H : Type}

def AllOffered (w : PresenceWorld H) (h : H) (id : JsString) : Prop :=
  ∀ channel e, (channel, e) ∈ w.published → e.conversationId = id → e.place ∈ w.offered h

structure Converges [Collation] (w : PresenceWorld H) : Prop where
  /-- What comes to a hub is suppressed only when the hub has processed it. -/
  unsuppressed : ∀ h, ∀ place ∈ w.offered h, ∃ e ∈ w.processed h, e.place = place
  /-- A subscriber that has missed nothing of its conversation gets each envelope once. -/
  once : ∀ q ∈ w.queues, q.closed = false → q.missed = [] → ∀ channel e, (channel, e) ∈ w.published →
    e.conversationId = q.conversationId → e.place ∈ w.offered q.hub →
    ((q.received ++ q.values).map (·.place)).count e.place = 1
  /-- It gets nothing else. -/
  only : ∀ q ∈ w.queues, q.closed = false → ∀ e ∈ q.received ++ q.values,
    (∃ channel, (channel, e) ∈ w.published) ∧ e.conversationId = q.conversationId
  /-- Hubs that were handed everything show the same. -/
  same : ∀ id h g, w.AllOffered h id → w.AllOffered g id → ∀ now, (∀ time ∈ w.readings h ++ w.readings g, time ≤ now) →
    (w.hubs h).snapshot id now = (w.hubs g).snapshot id now
  /-- No record that is shown is older than one that was published for its session. -/
  newest : ∀ id h, w.AllOffered h id → ∀ now, ∀ r ∈ (w.hubs h).snapshot id now, ∀ channel e, (channel, e) ∈ w.published →
    e.conversationId = id → e.kind = .upsert → e.key = getPresenceRecordKey r →
    e.record.updatedAt.milliseconds ≤ r.updatedAt.milliseconds

/-! ### The condition -/

def Before (w : PresenceWorld H) (h : H) (first second : Nat) : Prop :=
  [first, second].Sublist ((w.processed h).map (·.place))

/-- An envelope comes to the hub in order: of the session's envelopes that the hub has processed, no hub has processed one
after it, and none has a newer record. -/
def InOrder (w : PresenceWorld H) (h : H) (place : Nat) (id key : JsString) (kind : LivePresenceKind) (updated : Int) : Prop :=
  ∀ e ∈ w.processed h, e.conversationId = id → e.key = key →
    (∀ g, ¬w.Before g place e.place) ∧ (e.kind = .upsert → kind = .upsert → e.record.updatedAt.milliseconds ≤ updated)

/-- A publish gets an identity that no other has, what comes again is remembered, and what is new comes in order. -/
def Meets [RadixText] (w : PresenceWorld H) : PresenceAction H → Prop
  | .publish h conversationId kind input now =>
    (∀ published ∈ w.published, published.2.deliveryId ≠ deliveryId now ((w.hubs h).deliveryCounter + 1)) ∧
      ∀ record ∈ (normalizePresenceRecord input).toOption,
        w.InOrder h w.published.length conversationId (getPresenceRecordKey record) kind record.updatedAt.milliseconds
  | .deliver h place =>
    ∀ published ∈ w.published[place]?,
      if place ∈ (w.processed h).map (·.place) then published.2.deliveryId ∈ (w.hubs h).seen
      else w.InOrder h place published.2.conversationId published.2.key published.2.kind
        published.2.record.updatedAt.milliseconds
  | _ => True

/-- Every action of a run `Meets` its state. -/
def AllMeet [DecidableEq H] [RadixText] : PresenceWorld H → List (PresenceAction H) → Prop
  | _, [] => True
  | w, action :: rest => w.Meets action ∧ AllMeet (w.step action) rest

/-! ### The invariant -/

def session (w : PresenceWorld H) (h : H) (id key : JsString) : List LivePresenceEnvelope :=
  (w.processed h).filter fun e => e.conversationId = id ∧ e.key = key

/-- A bucket holds the record of the session's last envelope, unless it was a leave or the record has expired. -/
structure Remembers (w : PresenceWorld H) (h : H) (id key : JsString) : Prop where
  last : ∀ r, ((w.hubs h).records id).get key = some r →
    ∃ e, (w.session h id key).getLast? = some e ∧ e.kind = .upsert ∧ e.record = r
  held : ∀ e, (w.session h id key).getLast? = some e → e.kind = .upsert →
    ((w.hubs h).records id).get key = some e.record ∨ ∃ time ∈ w.readings h, e.record.expiresAt.milliseconds ≤ time

structure QueueConsistent (w : PresenceWorld H) (place : Nat) (q : LivePresenceQueue H) : Prop where
  waiting : q.waiters = 0 ∨ q.values = []
  subscribed : q.closed = false → place ∈ (w.hubs q.hub).subscribers q.conversationId
  received : q.closed = false →
    q.missed ++ (q.received ++ q.values) = (w.processed q.hub).filter (·.conversationId = q.conversationId)

structure Consistent (w : PresenceWorld H) : Prop where
  places : ∀ (i : Nat) channel e, w.published[i]? = some (channel, e) → e.place = i
  identities : (w.published.map (·.2.deliveryId)).Nodup
  processed : ∀ h, ∀ e ∈ w.processed h, ∃ channel, (channel, e) ∈ w.published
  distinct : ∀ h, ((w.processed h).map (·.place)).Nodup
  seen : ∀ h, ∀ deliveryId ∈ (w.hubs h).seen, ∃ e ∈ w.processed h, e.deliveryId = deliveryId
  offered : ∀ h, ∀ place ∈ w.offered h, ∃ e ∈ w.processed h, e.place = place
  queues : ∀ (place : Nat) q, w.queues[place]? = some q → w.QueueConsistent place q
  subscribers : ∀ h id, ∀ place ∈ (w.hubs h).subscribers id,
    ∃ q, w.queues[place]? = some q ∧ q.hub = h ∧ q.conversationId = id
  records : ∀ h id key, w.Remembers h id key
  ordered : ∀ h, ∀ a ∈ w.processed h, ∀ b ∈ w.processed h, w.Before h a.place b.place → a.conversationId = b.conversationId →
    a.key = b.key → (∀ g, ¬w.Before g b.place a.place) ∧
      (a.kind = .upsert → b.kind = .upsert → a.record.updatedAt.milliseconds ≤ b.record.updatedAt.milliseconds)

variable {w : PresenceWorld H} {h : H} {e : LivePresenceEnvelope} {channel : JsString}

theorem Consistent.eq_of_place (consistent : w.Consistent) {a b : LivePresenceEnvelope} {c d : JsString}
    (memberA : (c, a) ∈ w.published) (memberB : (d, b) ∈ w.published) (same : a.place = b.place) : a = b := by
  obtain ⟨i, atI⟩ := List.getElem?_of_mem memberA
  obtain ⟨j, atJ⟩ := List.getElem?_of_mem memberB
  obtain rfl := consistent.places i c a atI
  obtain rfl := consistent.places j d b atJ
  rw [same, atJ] at atI
  exact (Prod.mk.inj (Option.some.inj atI)).2.symm

theorem Consistent.eq_of_identity (consistent : w.Consistent) {a b : LivePresenceEnvelope} {c d : JsString}
    (memberA : (c, a) ∈ w.published) (memberB : (d, b) ∈ w.published) (same : a.deliveryId = b.deliveryId) : a = b :=
  (Prod.mk.inj (List.inj_on_of_nodup_map consistent.identities memberA memberB same)).2

/-- A hub that has not processed an envelope does not take it for one that it has. -/
theorem Consistent.not_seen (consistent : w.Consistent) (published : (channel, e) ∈ w.published)
    (new : e.place ∉ (w.processed h).map (·.place)) : e.deliveryId ∉ (w.hubs h).seen := by
  intro known
  obtain ⟨f, member, same⟩ := consistent.seen h _ known
  obtain ⟨_, listed⟩ := consistent.processed h f member
  rw [consistent.eq_of_identity listed published same] at member
  exact new (List.mem_map_of_mem member)

theorem QueueConsistent.frame {v : PresenceWorld H} {place : Nat} {q : LivePresenceQueue H}
    (consistent : w.QueueConsistent place q) (processed : v.processed = w.processed)
    (subscribers : (v.hubs q.hub).subscribers = (w.hubs q.hub).subscribers) : v.QueueConsistent place q where
  waiting := consistent.waiting
  subscribed := subscribers ▸ consistent.subscribed
  received := processed ▸ consistent.received

variable {id key : JsString}

theorem Remembers.frame {v : PresenceWorld H} (remembers : w.Remembers h id key)
    (processed : v.processed = w.processed) (records : (v.hubs h).records = (w.hubs h).records)
    (readings : v.readings h = w.readings h) : v.Remembers h id key := by
  have session : v.session h id key = w.session h id key := by rw [session, processed, PresenceWorld.session]
  constructor
  · rw [session, records]
    exact remembers.last
  · rw [session, records, readings]
    exact remembers.held

/-! ### Convergence -/

theorem Consistent.processed_of_offered (consistent : w.Consistent) {id : JsString} (offered : w.AllOffered h id)
    (published : (channel, e) ∈ w.published) (conversation : e.conversationId = id) : e ∈ w.processed h := by
  obtain ⟨f, member, place⟩ := consistent.offered h _ (offered channel e published conversation)
  obtain ⟨_, listed⟩ := consistent.processed h f member
  rwa [consistent.eq_of_place listed published place] at member

theorem mem_session :
    e ∈ w.session h id key ↔ e ∈ w.processed h ∧ e.conversationId = id ∧ e.key = key := by
  simp [session]

/-- Of two envelopes of a session, the hub has processed the last one after the other. -/
theorem before_of_last {last : LivePresenceEnvelope} (member : e ∈ w.session h id key)
    (ends : (w.session h id key).getLast? = some last) (different : e ≠ last) : w.Before h e.place last.place := by
  have pair : [e, last].Sublist (w.processed h) := (pair_sublist_getLast? member ends different).trans List.filter_sublist
  exact pair.map (·.place)

theorem mem_of_last {last : LivePresenceEnvelope}
    (ends : (w.session h id key).getLast? = some last) : last ∈ w.session h id key := List.mem_of_getLast? ends

theorem Consistent.last_same (consistent : w.Consistent) {g : H} (offered : w.AllOffered g id)
    (offeredToo : w.AllOffered h id) {last : LivePresenceEnvelope} (ends : (w.session h id key).getLast? = some last) :
    (w.session g id key).getLast? = some last := by
  have everywhere {g h : H} (offered : w.AllOffered g id) {f : LivePresenceEnvelope} (member : f ∈ w.session h id key) :
      f ∈ w.session g id key := by
    obtain ⟨processed, conversation, sameKey⟩ := mem_session.mp member
    obtain ⟨_, listed⟩ := consistent.processed h f processed
    exact mem_session.mpr ⟨consistent.processed_of_offered offered listed conversation, conversation, sameKey⟩
  have there := everywhere offered (mem_of_last ends)
  cases other : (w.session g id key).getLast? with
  | none =>
    rw [List.getLast?_eq_none_iff.mp other] at there
    cases there
  | some f =>
    by_contra different
    have ne : last ≠ f := fun same => different (congrArg some same.symm)
    have here := everywhere offeredToo (mem_of_last other)
    obtain ⟨processedL, conversationL, keyL⟩ := mem_session.mp there
    obtain ⟨processedF, conversationF, keyF⟩ := mem_session.mp (mem_of_last other)
    obtain ⟨never, -⟩ := consistent.ordered g last processedL f processedF (before_of_last there other ne)
      (conversationL.trans conversationF.symm) (keyL.trans keyF.symm)
    exact never h (before_of_last here ends (Ne.symm ne))

theorem Consistent.mem_liveEntries (consistent : w.Consistent) {now : ℚ} {r : PresenceRecord}
    (times : ∀ time ∈ w.readings h, time ≤ now) : (key, r) ∈ (w.hubs h).liveEntries id now ↔
      (∃ e, (w.session h id key).getLast? = some e ∧ e.kind = .upsert ∧ e.record = r) ∧
        now < r.expiresAt.milliseconds := by
  obtain ⟨last, held⟩ := consistent.records h id key
  rw [LivePresenceHub.liveEntries, List.mem_filter, OrderedMap.mem_entries_iff]
  simp only [decide_eq_true_eq]
  constructor
  · rintro ⟨found, lives⟩
    exact ⟨last r found, lives⟩
  · rintro ⟨⟨e, ends, upsert, rfl⟩, lives⟩
    rcases held e ends upsert with found | ⟨time, read, spent⟩
    · exact ⟨found, lives⟩
    · exact absurd (spent.trans (times time read)) (not_le.mpr lives)

theorem Consistent.key_of_mem (consistent : w.Consistent) {id : JsString} {now : ℚ} {entry : JsString × PresenceRecord}
    (member : entry ∈ (w.hubs h).liveEntries id now) : entry.1 = getPresenceRecordKey entry.2 := by
  have held := OrderedMap.mem_entries_iff.mp (List.mem_filter.mp member).1
  obtain ⟨e, ends, -, same⟩ := (consistent.records h id entry.1).last entry.2 held
  rw [← (mem_session.mp (mem_of_last ends)).2.2, ← same]
  rfl

theorem Consistent.snapshot_same [Collation] [LawfulCollation] (consistent : w.Consistent) {g : H} {id : JsString}
    (offered : w.AllOffered h id) (offeredToo : w.AllOffered g id) {now : ℚ}
    (times : ∀ time ∈ w.readings h ++ w.readings g, time ≤ now) : (w.hubs h).snapshot id now = (w.hubs g).snapshot id now := by
  rw [List.forall_mem_append] at times
  have members (entry : JsString × PresenceRecord) :
      entry ∈ (w.hubs h).liveEntries id now ↔ entry ∈ (w.hubs g).liveEntries id now := by
    obtain ⟨key, r⟩ := entry
    rw [consistent.mem_liveEntries times.1, consistent.mem_liveEntries times.2]
    constructor
    · rintro ⟨⟨e, ends, held⟩, lives⟩
      exact ⟨⟨e, consistent.last_same offeredToo offered ends, held⟩, lives⟩
    · rintro ⟨⟨e, ends, held⟩, lives⟩
      exact ⟨⟨e, consistent.last_same offered offeredToo ends, held⟩, lives⟩
  have nodup (f : H) : ((w.hubs f).liveEntries id now).Nodup :=
    (List.Nodup.of_map _ ((w.hubs f).records id).distinct).sublist List.filter_sublist
  have perm := (List.perm_ext_iff_of_nodup (nodup h) (nodup g)).mpr members
  have _ : Std.Total fun a b : JsString × PresenceRecord => Collation.localeCompare a.1 b.1 ≤ 0 :=
    ⟨fun a b => LawfulCollation.total a.1 b.1⟩
  have _ : IsTrans (JsString × PresenceRecord) fun a b => Collation.localeCompare a.1 b.1 ≤ 0 :=
    ⟨fun a b c => LawfulCollation.trans a.1 b.1 c.1⟩
  refine congrArg (List.map Prod.snd) (List.Perm.eq_of_pairwise ?_ (List.pairwise_insertionSort _ _)
    (List.pairwise_insertionSort _ _) ((List.perm_insertionSort _ _).trans (perm.trans (List.perm_insertionSort _ _).symm)))
  intro a b memberA memberB le ge
  have liveA := (List.mem_insertionSort _).mp memberA
  have liveB := (members b).mpr ((List.mem_insertionSort _).mp memberB)
  rw [consistent.key_of_mem liveA, consistent.key_of_mem liveB] at le ge
  have key : a.1 = b.1 := by
    rw [consistent.key_of_mem liveA, consistent.key_of_mem liveB]
    exact LawfulCollation.antisymm a.2 b.2 le ge
  exact List.inj_on_of_nodup_map ((w.hubs h).records id).distinct (List.mem_filter.mp liveA).1 (List.mem_filter.mp liveB).1 key

theorem Consistent.snapshot_newest [Collation] (consistent : w.Consistent) {id : JsString} (offered : w.AllOffered h id)
    {now : ℚ} {r : PresenceRecord} (shown : r ∈ (w.hubs h).snapshot id now) (published : (channel, e) ∈ w.published)
    (conversation : e.conversationId = id) (upsert : e.kind = .upsert) (key : e.key = getPresenceRecordKey r) :
    e.record.updatedAt.milliseconds ≤ r.updatedAt.milliseconds := by
  obtain ⟨entry, member, rfl⟩ := List.mem_map.mp shown
  have live := (List.mem_insertionSort _).mp member
  have sameKey := consistent.key_of_mem live
  have held := OrderedMap.mem_entries_iff.mp (List.mem_filter.mp live).1
  obtain ⟨last, ends, upsertLast, same⟩ := (consistent.records h id entry.1).last entry.2 held
  obtain ⟨processedL, conversationL, keyL⟩ := mem_session.mp (mem_of_last ends)
  have processed := consistent.processed_of_offered offered published conversation
  have inSession : e ∈ w.session h id entry.1 := mem_session.mpr ⟨processed, conversation, key.trans sameKey.symm⟩
  rw [← same]
  by_cases here : e = last
  · rw [here]
  · have times := (consistent.ordered h e processed last processedL (before_of_last inSession ends here)
      (conversation.trans conversationL.symm) (key.trans (sameKey.symm.trans keyL.symm))).2
    exact times upsert upsertLast

theorem converges_of_consistent [Collation] [LawfulCollation] (consistent : w.Consistent) : w.Converges where
  unsuppressed := consistent.offered
  once q member going missed channel e published conversation offered := by
    obtain ⟨place, held⟩ := List.getElem?_of_mem member
    have received := (consistent.queues place q held).received going
    rw [missed, List.nil_append] at received
    obtain ⟨f, inside, same⟩ := consistent.offered q.hub e.place offered
    obtain ⟨_, listed⟩ := consistent.processed q.hub f inside
    obtain rfl := consistent.eq_of_place listed published same
    rw [received]
    refine List.count_eq_one_of_mem ((consistent.distinct q.hub).sublist (List.filter_sublist.map _)) ?_
    exact List.mem_map_of_mem (List.mem_filter.mpr ⟨inside, by simpa using conversation⟩)
  only q member going e gets := by
    obtain ⟨place, held⟩ := List.getElem?_of_mem member
    have received := (consistent.queues place q held).received going
    have inside : e ∈ (w.processed q.hub).filter (·.conversationId = q.conversationId) :=
      received ▸ List.mem_append_right _ gets
    obtain ⟨processed, conversation⟩ := List.mem_filter.mp inside
    exact ⟨consistent.processed q.hub e processed, by simpa using conversation⟩
  same _ _ _ offered offeredToo _ times := consistent.snapshot_same offered offeredToo times
  newest _ _ offered _ _ shown _ _ published conversation upsert key :=
    consistent.snapshot_newest offered shown published conversation upsert key

end PresenceWorld

end Handrail.Presence

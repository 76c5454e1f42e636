import Handrail.Presence.Collections
import Handrail.Conversation.ApprovalStore
import Mathlib.Logic.Function.Basic

/-!
# `presence/live-delivery.ts`

Hubs that keep the presence of conversations in memory and tell each other of it over one pub-sub. An envelope is named by
its place among the published ones. The pub-sub hands an envelope to a hub any number of times and in any order.
-/

namespace Handrail.Presence
open Js Conversation

/-- `Number.prototype.toString(36)` -/
class RadixText where
  radix36 : ℚ → JsString

inductive LivePresenceKind where
  | upsert
  | leave
deriving DecidableEq, Repr

structure LivePresenceEnvelope where
  conversationId : JsString
  sequence : Nat
  deliveryId : JsString
  kind : LivePresenceKind
  record : PresenceRecord
  /-- The place among the published envelopes; no field of the source's. -/
  place : Nat

def LivePresenceEnvelope.key (e : LivePresenceEnvelope) : JsString := getPresenceRecordKey e.record

/-- `requireConversationId`, `none` when it throws. -/
def requireConversationId (value : JsString) : Option JsString :=
  let further : Pattern := .unit fun c => Pattern.isAlphanumeric c || Pattern.oneOf "._:@/-" c
  if (Pattern.all [.start, .unit Pattern.isAlphanumeric, .repeats further 0 (some 255), .finish]).test value then some value
  else none

theorem requireConversationId_eq {value id : JsString} (accepted : requireConversationId value = some id) : value = id := by
  unfold requireConversationId at accepted
  dsimp only at accepted
  split at accepted
  · exact Option.some.inj accepted
  · cases accepted

/-! ### Queues -/

/-- What `createQueue` returns. -/
structure LivePresenceQueue (H : Type) where
  hub : H
  conversationId : JsString
  values : List LivePresenceEnvelope
  waiters : Nat
  closed : Bool
  /-- What calls of `next` were resolved with, in order. -/
  received : List LivePresenceEnvelope
  /-- What the hub had processed of the conversation before. -/
  missed : List LivePresenceEnvelope

namespace LivePresenceQueue
variable {H : Type}

def push (q : LivePresenceQueue H) (value : LivePresenceEnvelope) : LivePresenceQueue H :=
  if q.closed then q
  else if 0 < q.waiters then { q with waiters := q.waiters - 1, received := q.received ++ [value] }
  else { q with values := q.values ++ [value] }

/-- The waiters are resolved with `done`. -/
def close (q : LivePresenceQueue H) : LivePresenceQueue H := if q.closed then q else { q with closed := true, waiters := 0 }

def next (q : LivePresenceQueue H) : LivePresenceQueue H :=
  match q.values with
  | value :: rest => { q with values := rest, received := q.received ++ [value] }
  | [] => if q.closed then q else { q with waiters := q.waiters + 1 }

theorem push_waiting {q : LivePresenceQueue H} {e : LivePresenceEnvelope} (waiting : q.waiters = 0 ∨ q.values = []) :
    (q.push e).waiters = 0 ∨ (q.push e).values = [] := by
  unfold push
  split
  · exact waiting
  · split
    · rename_i positive
      exact .inr (waiting.resolve_left (by omega))
    · exact .inl (by simp; omega)

theorem push_gets {q : LivePresenceQueue H} {e : LivePresenceEnvelope} (waiting : q.waiters = 0 ∨ q.values = [])
    (going : q.closed = false) :
    (q.push e).received ++ (q.push e).values = q.received ++ q.values ++ [e] := by
  unfold push
  rw [going]
  by_cases positive : 0 < q.waiters
  · have empty := waiting.resolve_left (by omega)
    simp [positive, empty]
  · simp [positive]

theorem push_same (q : LivePresenceQueue H) (e : LivePresenceEnvelope) :
    (q.push e).hub = q.hub ∧ (q.push e).conversationId = q.conversationId ∧
    (q.push e).closed = q.closed ∧ (q.push e).missed = q.missed := by
  unfold push
  split
  · exact ⟨rfl, rfl, rfl, rfl⟩
  · split <;> exact ⟨rfl, rfl, rfl, rfl⟩

theorem next_waiting {q : LivePresenceQueue H} (waiting : q.waiters = 0 ∨ q.values = []) :
    q.next.waiters = 0 ∨ q.next.values = [] := by
  unfold next
  split
  · rename_i value rest values
    exact .inl (waiting.resolve_right (by rw [values]; simp))
  · rename_i empty
    split
    · exact .inr empty
    · exact .inr empty

theorem next_same (q : LivePresenceQueue H) : q.next.hub = q.hub ∧ q.next.conversationId = q.conversationId ∧
    q.next.closed = q.closed ∧ q.next.missed = q.missed ∧ q.next.received ++ q.next.values = q.received ++ q.values := by
  unfold next
  split
  · rename_i value rest values
    simp [values]
  · split <;> exact ⟨rfl, rfl, rfl, rfl, rfl⟩

theorem close_same (q : LivePresenceQueue H) :
    q.close.hub = q.hub ∧ q.close.conversationId = q.conversationId ∧ q.close.closed = true := by
  unfold close
  split
  · rename_i closed
    exact ⟨rfl, rfl, closed⟩
  · exact ⟨rfl, rfl, rfl⟩

theorem close_waiting {q : LivePresenceQueue H} (waiting : q.waiters = 0 ∨ q.values = []) :
    q.close.waiters = 0 ∨ q.close.values = [] := by
  unfold close
  split
  · exact waiting
  · exact .inl rfl

end LivePresenceQueue

/-! ### Hubs -/

/-- What `createInMemoryLivePresenceDelivery` closes over. A bucket or a set that is absent is empty. -/
structure LivePresenceHub where
  channelPrefix : JsString
  records : JsString → OrderedMap JsString PresenceRecord
  /-- The queues of a conversation, by their places. -/
  subscribers : JsString → List Nat
  subscribed : List JsString
  sequence : JsString → Nat
  /-- The oldest first. -/
  seen : List JsString
  deliveryCounter : Nat

namespace LivePresenceHub

def create (channelPrefix : JsString) : LivePresenceHub where
  channelPrefix
  records _ := .empty
  subscribers _ := []
  subscribed := []
  sequence _ := 0
  seen := []
  deliveryCounter := 0

def maximumSeen : Nat := 10000

def channel (hub : LivePresenceHub) (id : JsString) : JsString := hub.channelPrefix ++ id

/-- `seen.add`, and the oldest is forgotten when there are too many. -/
def remember (hub : LivePresenceHub) (deliveryId : JsString) : List JsString :=
  let seen := hub.seen ++ [deliveryId]
  if maximumSeen < seen.length then seen.drop 1 else seen

theorem mem_remember {hub : LivePresenceHub} {deliveryId other : JsString} (member : other ∈ hub.remember deliveryId) :
    other ∈ hub.seen ∨ other = deliveryId := by
  have inside : other ∈ hub.seen ++ [deliveryId] := by
    unfold remember at member
    dsimp only at member
    split at member
    · exact List.mem_of_mem_drop member
    · exact member
  simpa using inside

def applied (hub : LivePresenceHub) (e : LivePresenceEnvelope) : OrderedMap JsString PresenceRecord :=
  match e.kind with
  | .leave => (hub.records e.conversationId).delete e.key
  | .upsert => (hub.records e.conversationId).set e.key e.record

theorem get_applied {hub : LivePresenceHub} {e : LivePresenceEnvelope} :
    (hub.applied e).get e.key = if e.kind = .upsert then some e.record else none := by
  unfold applied
  cases e.kind <;> simp

theorem get_applied_other {hub : LivePresenceHub} {e : LivePresenceEnvelope} {key : JsString} (different : key ≠ e.key) :
    (hub.applied e).get key = (hub.records e.conversationId).get key := by
  unfold applied
  cases e.kind
  · exact OrderedMap.get_set_other _ _ different
  · exact OrderedMap.get_delete_other _ different

/-- What `emit` does with an envelope that it does not suppress, the subscribers apart. -/
def process (hub : LivePresenceHub) (e : LivePresenceEnvelope) : LivePresenceHub :=
  { hub with
    seen := hub.remember e.deliveryId
    records := Function.update hub.records e.conversationId (hub.applied e) }

def without (hub : LivePresenceHub) (id : JsString) (place : Nat) : LivePresenceHub :=
  { hub with subscribers := Function.update hub.subscribers id ((hub.subscribers id).filter (· ≠ place)) }

theorem mem_without {hub : LivePresenceHub} {id other : JsString} {place queue : Nat} :
    queue ∈ (hub.without id place).subscribers other ↔ queue ∈ hub.subscribers other ∧ (other = id → queue ≠ place) := by
  have sets : (hub.without id place).subscribers other =
      Function.update hub.subscribers id ((hub.subscribers id).filter (· ≠ place)) other := rfl
  rw [sets]
  by_cases same : other = id
  · subst same
    simp
  · simp [same]

def liveEntries (hub : LivePresenceHub) (id : JsString) (current : ℚ) : List (JsString × PresenceRecord) :=
  (hub.records id).entries.filter fun entry => current < entry.2.expiresAt.milliseconds

/-- What `snapshot` returns. -/
def snapshot [Collation] (hub : LivePresenceHub) (id : JsString) (current : ℚ) : List PresenceRecord :=
  ((hub.liveEntries id current).insertionSort fun a b => Collation.localeCompare a.1 b.1 ≤ 0).map Prod.snd

/-- The hub after `snapshot`, which deletes what has expired. -/
def prune (hub : LivePresenceHub) (id : JsString) (current : ℚ) : LivePresenceHub :=
  { hub with
    records := Function.update hub.records id
      ⟨hub.liveEntries id current, (hub.records id).distinct.sublist (List.filter_sublist.map Prod.fst)⟩ }

end LivePresenceHub

namespace LivePresenceHub

theorem get_prune {hub : LivePresenceHub} {id key : JsString} {current : ℚ} {r : PresenceRecord} :
    ((hub.prune id current).records id).get key = some r ↔
      (hub.records id).get key = some r ∧ current < r.expiresAt.milliseconds := by
  rw [← OrderedMap.mem_entries_iff, ← OrderedMap.mem_entries_iff, prune]
  simp [liveEntries]

theorem records_prune_other {hub : LivePresenceHub} {id other : JsString} {current : ℚ} (different : other ≠ id) :
    (hub.prune id current).records other = hub.records other := Function.update_of_ne different ..

end LivePresenceHub

/-! ### Hubs on one pub-sub -/

structure PresenceWorld (H : Type) where
  hubs : H → LivePresenceHub
  queues : List (LivePresenceQueue H)
  /-- The channel and the envelope of every call of `pubSub.publish`. -/
  published : List (JsString × LivePresenceEnvelope)
  /-- The places of what `emit` was called with. -/
  offered : H → List Nat
  /-- What `emit` did not suppress. -/
  processed : H → List LivePresenceEnvelope
  /-- The times of snapshots. -/
  readings : H → List ℚ

inductive PresenceAction (H : Type) where
  | publish (hub : H) (conversationId : JsString) (kind : LivePresenceKind) (input : Json) (now : ℚ)
  /-- The pub-sub hands the envelope to the hub. -/
  | deliver (hub : H) (place : Nat)
  | subscribe (hub : H) (conversationId : JsString)
  | next (queue : Nat)
  | close (queue : Nat)
  | snapshot (hub : H) (conversationId : JsString) (now : ℚ)

namespace PresenceWorld
variable {H : Type} [DecidableEq H]

def start (prefixes : H → JsString) : PresenceWorld H where
  hubs h := .create (prefixes h)
  queues := []
  published := []
  offered _ := []
  processed _ := []
  readings _ := []

def setHub (w : PresenceWorld H) (h : H) (hub : LivePresenceHub) : PresenceWorld H :=
  { w with hubs := Function.update w.hubs h hub }

def pushAll (w : PresenceWorld H) (subscribers : List Nat) (e : LivePresenceEnvelope) : PresenceWorld H :=
  { w with queues := w.queues.mapIdx fun place q => if place ∈ subscribers then q.push e else q }

/-- `emit` of a hub. -/
def emit (w : PresenceWorld H) (h : H) (e : LivePresenceEnvelope) : PresenceWorld H :=
  let hub := w.hubs h
  let w := { w with offered := Function.update w.offered h (w.offered h ++ [e.place]) }
  if e.deliveryId ∈ hub.seen then w
  else
    let w := w.setHub h (hub.process e)
    let w := { w with processed := Function.update w.processed h (w.processed h ++ [e]) }
    w.pushAll (hub.subscribers e.conversationId) e

/-- `` `${now().toString(36)}-${(++deliveryCounter).toString(36)}` `` -/
def deliveryId [RadixText] (now : ℚ) (counter : Nat) : JsString :=
  RadixText.radix36 now ++ js "-" ++ RadixText.radix36 counter

def nextEnvelope [RadixText] (w : PresenceWorld H) (h : H) (id : JsString) (kind : LivePresenceKind) (record : PresenceRecord)
    (now : ℚ) : LivePresenceEnvelope where
  conversationId := id
  sequence := (w.hubs h).sequence id + 1
  deliveryId := deliveryId now ((w.hubs h).deliveryCounter + 1)
  kind
  record
  place := w.published.length

/-- `publish` after its checks. -/
def announce [RadixText] (w : PresenceWorld H) (h : H) (id : JsString) (kind : LivePresenceKind) (record : PresenceRecord)
    (now : ℚ) : PresenceWorld H :=
  let hub := w.hubs h
  let envelope := w.nextEnvelope h id kind record now
  let w := w.setHub h { hub with
    sequence := Function.update hub.sequence id envelope.sequence
    deliveryCounter := hub.deliveryCounter + 1 }
  let w := { w with published := w.published ++ [(hub.channel id, envelope)] }
  w.emit h envelope

/-- `subscribe` after its check. -/
def addQueue (w : PresenceWorld H) (h : H) (id : JsString) : PresenceWorld H :=
  let hub := w.hubs h
  let queue : LivePresenceQueue H :=
    { hub := h, conversationId := id, values := [], waiters := 0, closed := false, received := [],
      missed := (w.processed h).filter (·.conversationId = id) }
  let hub := { hub with
    subscribers := Function.update hub.subscribers id (hub.subscribers id ++ [w.queues.length])
    subscribed := if id ∈ hub.subscribed then hub.subscribed else hub.subscribed ++ [id] }
  { w.setHub h hub with queues := w.queues ++ [queue] }

/-- `close` of a queue, which leaves the set of subscribers. -/
def closeQueue (w : PresenceWorld H) (place : Nat) : PresenceWorld H :=
  match w.queues[place]? with
  | some q =>
    { w.setHub q.hub ((w.hubs q.hub).without q.conversationId place) with queues := w.queues.set place q.close }
  | none => w

def step [RadixText] (w : PresenceWorld H) : PresenceAction H → PresenceWorld H
  | .publish h conversationId kind input now =>
    match requireConversationId conversationId, normalizePresenceRecord input with
    | some id, .ok record => w.announce h id kind record now
    | _, _ => w
  | .deliver h place =>
    match w.published[place]? with
    | some (channel, e) =>
      if (w.hubs h).subscribed.any ((w.hubs h).channel · == channel) then w.emit h e else w
    | none => w
  | .subscribe h conversationId =>
    match requireConversationId conversationId with
    | some id => w.addQueue h id
    | none => w
  | .next place => { w with queues := w.queues.modify place LivePresenceQueue.next }
  | .close place => w.closeQueue place
  | .snapshot h conversationId now =>
    match requireConversationId conversationId with
    | some id =>
      { w.setHub h ((w.hubs h).prune id now) with readings := Function.update w.readings h (w.readings h ++ [now]) }
    | none => w

def run [RadixText] (w : PresenceWorld H) (actions : List (PresenceAction H)) : PresenceWorld H := actions.foldl step w

end PresenceWorld

end Handrail.Presence

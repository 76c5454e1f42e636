import Handrail.Js.Arrays
import Handrail.Js.LiveSet
import Handrail.Js.Pattern
import Mathlib.Logic.Function.Basic

/-!
# `postgres/live-pubsub.ts`

Subscriptions to logical channels over one connection that listens to a channel of the database. The receivers of a logical
channel are in one `Set`; a notification is handed to them one after the other, and each can call the pub-sub before it
returns. What a payload carries is a parameter: routing reads the logical channel alone.
-/

namespace Handrail.Postgres
open Js

variable {Envelope : Type}

/-- The pattern of `logicalChannel`. -/
def logicalChannelPattern : Pattern :=
  let further : Pattern := .unit fun c => Pattern.isAlphanumeric c || Pattern.oneOf "._:@/-" c
  .all [.start, .unit Pattern.isAlphanumeric, .repeats further 0 (some 511), .finish]

/-- `logicalChannel`, `none` when it throws. -/
def logicalChannel (value : JsString) : Option JsString :=
  if logicalChannelPattern.test (trim value) then some (trim value) else none

/-- `#connection`, once it is not `null`. -/
inductive ListenConnection where
  /-- Awaits `connect`. -/
  | connecting
  /-- The listener is attached; awaits `LISTEN`. -/
  | listening
  | up
  | failed
deriving DecidableEq, Repr

inductive SubscriptionPhase where
  /-- `subscribe` awaits the connection. -/
  | connecting
  | active
  /-- Unsubscribed, or `subscribe` has thrown. -/
  | spent
deriving DecidableEq, Repr

/-- A call of `subscribe`. Receivers are named by numbers: one function, one number. -/
structure LiveSubscription where
  key : JsString
  receiver : Nat
  /-- `receivers`, by its place among the sets. -/
  set : Nat
  /-- The place of its receiver in the set. -/
  place : Nat
  phase : SubscriptionPhase
deriving DecidableEq, Repr

def LiveSubscription.isLive (s : LiveSubscription) : Bool := s.phase != .spent

structure ReceiverSet where
  key : JsString
  receivers : LiveSet Nat

structure LiveDelivery (Envelope : Type) where
  key : JsString
  envelope : Envelope
  set : Nat
  /-- The place of the next entry of the set when the notification came. -/
  began : Nat
  /-- The iteration is past the places below this one. -/
  place : Nat
  /-- The entries whose receivers were called, in order. -/
  calls : List (Nat × Nat)
  isGoing : Bool

structure PostgresLivePubSub (Envelope : Type) where
  databaseChannel : JsString
  /-- `#subscribers` -/
  subscribers : JsString → Option Nat
  connection : Option ListenConnection
  closed : Bool
  /-- The sets that were made, by their places. -/
  sets : Nat → ReceiverSet
  created : Nat
  subscriptions : List LiveSubscription
  deliveries : List (LiveDelivery Envelope)

structure PostgresNotification where
  channel : JsString
  payload : Option JsString

namespace PostgresLivePubSub

def create (databaseChannel : JsString) : PostgresLivePubSub Envelope where
  databaseChannel
  subscribers _ := none
  connection := none
  closed := false
  sets _ := ⟨JsString.empty, .empty⟩
  created := 0
  subscriptions := []
  deliveries := []

def ensureConnection (s : PostgresLivePubSub Envelope) : PostgresLivePubSub Envelope :=
  match s.connection with
  | some _ => s
  | none => { s with connection := some .connecting }

def register (s : PostgresLivePubSub Envelope) (key : JsString) : PostgresLivePubSub Envelope × Nat :=
  match s.subscribers key with
  | some set => (s, set)
  | none =>
    ({ s with
        subscribers := Function.update s.subscribers key (some s.created)
        sets := Function.update s.sets s.created ⟨key, .empty⟩
        created := s.created + 1 }, s.created)

def setReceivers (s : PostgresLivePubSub Envelope) (set : Nat) (receivers : LiveSet Nat) : PostgresLivePubSub Envelope :=
  { s with sets := Function.update s.sets set { s.sets set with receivers } }

/-- `subscribe` up to its first `await`, for a channel with a valid name. -/
def addReceiver (s : PostgresLivePubSub Envelope) (key : JsString) (receiver : Nat) : PostgresLivePubSub Envelope :=
  let (s, set) := s.register key
  let receivers := (s.sets set).receivers
  let subscription : LiveSubscription := ⟨key, receiver, set, receivers.place receiver, .connecting⟩
  let s := s.setReceivers set (receivers.add receiver)
  { s with subscriptions := s.subscriptions ++ [subscription] }.ensureConnection

/-- `subscribe`, which throws when the pub-sub is closed or the name is not valid. -/
def subscribe (s : PostgresLivePubSub Envelope) (channel : JsString) (receiver : Nat) : PostgresLivePubSub Envelope :=
  if s.closed then s
  else
    match logicalChannel channel with
    | none => s
    | some key => s.addReceiver key receiver

/-- `receivers.delete(receiver); if (receivers.size === 0) this.#subscribers.delete(key);` -/
def removeReceiver (s : PostgresLivePubSub Envelope) (subscription : LiveSubscription) : PostgresLivePubSub Envelope :=
  let s := s.setReceivers subscription.set ((s.sets subscription.set).receivers.delete subscription.receiver)
  if (s.sets subscription.set).receivers.size = 0 then
    { s with subscribers := Function.update s.subscribers subscription.key none }
  else s

def setSubscription (s : PostgresLivePubSub Envelope) (i : Nat) (subscription : LiveSubscription)
    (phase : SubscriptionPhase) : PostgresLivePubSub Envelope :=
  { s with subscriptions := s.subscriptions.set i { subscription with phase } }

/-- A call of `subscribe` goes on when the connection has settled. -/
def resume (s : PostgresLivePubSub Envelope) (i : Nat) : PostgresLivePubSub Envelope :=
  match s.subscriptions[i]? with
  | some subscription =>
    match subscription.phase, s.connection with
    | .connecting, some .up => s.setSubscription i subscription .active
    | .connecting, some .failed => (s.removeReceiver subscription).setSubscription i subscription .spent
    | _, _ => s
  | none => s

/-- What `subscribe` has returned is called. -/
def unsubscribe (s : PostgresLivePubSub Envelope) (i : Nat) : PostgresLivePubSub Envelope :=
  match s.subscriptions[i]? with
  | some subscription =>
    if subscription.phase = .active then (s.removeReceiver subscription).setSubscription i subscription .spent else s
  | none => s

/-- `close`, which then releases the connection. -/
def close (s : PostgresLivePubSub Envelope) : PostgresLivePubSub Envelope :=
  { s with
    closed := true
    subscribers := fun _ => none }

/-! ### Deliveries -/

def visit (s : PostgresLivePubSub Envelope) (d : LiveDelivery Envelope) : LiveDelivery Envelope :=
  match (s.sets d.set).receivers.next d.place with
  | some entry =>
    { d with
      place := entry.1 + 1
      calls := d.calls ++ [entry] }
  | none => { d with isGoing := false }

/-- `#receive`; `decode` is `decodeNotification`, `none` when it throws. -/
def receive (decode : Option JsString → Option (JsString × Envelope)) (s : PostgresLivePubSub Envelope)
    (notification : PostgresNotification) : PostgresLivePubSub Envelope :=
  if s.closed ∨ notification.channel ≠ s.databaseChannel then s
  else
    match decode notification.payload with
    | none => s
    | some (key, envelope) =>
      match s.subscribers key with
      | none => s
      | some set =>
        let d : LiveDelivery Envelope := ⟨key, envelope, set, (s.sets set).receivers.fresh, 0, [], true⟩
        { s with deliveries := s.deliveries ++ [s.visit d] }

def isAttached (s : PostgresLivePubSub Envelope) : Bool :=
  s.connection = some .listening || s.connection = some .up

def setDelivery (s : PostgresLivePubSub Envelope) (i : Nat) (d : LiveDelivery Envelope) : PostgresLivePubSub Envelope :=
  { s with deliveries := s.deliveries.set i d }

end PostgresLivePubSub

/-! ### Runs -/

inductive PubSubAction where
  | subscribe (channel : JsString) (receiver : Nat)
  | resume (subscription : Nat)
  | unsubscribe (subscription : Nat)
  | connected
  | listened
  /-- `connect` or `LISTEN` fails. -/
  | connectFailed
  | notify (notification : PostgresNotification)
  /-- The receiver that a delivery has called returns. -/
  | returned (delivery : Nat)
  | threw (delivery : Nat)
  /-- `publish` sends a payload; the subscriptions are left alone. -/
  | publish (payload : JsString)
  | close

namespace PostgresLivePubSub

def step (decode : Option JsString → Option (JsString × Envelope)) (s : PostgresLivePubSub Envelope) :
    PubSubAction → PostgresLivePubSub Envelope
  | .subscribe channel receiver => s.subscribe channel receiver
  | .resume i => s.resume i
  | .unsubscribe i => s.unsubscribe i
  | .connected => if s.connection = some .connecting then { s with connection := some .listening } else s
  | .listened => if s.connection = some .listening then { s with connection := some .up } else s
  | .connectFailed =>
    if s.connection = some .connecting ∨ s.connection = some .listening then { s with connection := some .failed } else s
  | .notify notification => if s.isAttached then s.receive decode notification else s
  | .returned i =>
    match s.deliveries[i]? with
    | some d => if d.isGoing then s.setDelivery i (s.visit d) else s
    | none => s
  | .threw i =>
    match s.deliveries[i]? with
    | some d => if d.isGoing then s.setDelivery i { d with isGoing := false } else s
    | none => s
  | .publish _ => s
  | .close => if s.closed then s else s.close

def run (decode : Option JsString → Option (JsString × Envelope)) (s : PostgresLivePubSub Envelope)
    (actions : List PubSubAction) : PostgresLivePubSub Envelope := actions.foldl (step decode) s

end PostgresLivePubSub

end Handrail.Postgres

import Handrail.Postgres.LivePubSub
import Handrail.Js.Json

/-!
# Notifications reach their subscriptions

Every live subscription has an entry of its own in the registered set of its channel, and a delivery that is over has called
the receivers of all entries that were there when the notification came.
-/

namespace Handrail.Postgres
open Js

variable {Envelope : Type}

namespace PostgresLivePubSub

def entryOf (sub : LiveSubscription) : Nat × Nat := (sub.place, sub.receiver)

/-! ### What is promised -/

structure Routes (decode : Option JsString → Option (JsString × Envelope)) (s : PostgresLivePubSub Envelope) : Prop where
  /-- A notification that decodes starts a delivery to the live subscriptions of its channel. -/
  accepts : ∀ notification key envelope, s.isAttached = true → s.closed = false →
    notification.channel = s.databaseChannel → decode notification.payload = some (key, envelope) →
    ∀ sub ∈ s.subscriptions, sub.isLive = true → sub.key = key →
      ∃ d, (s.step decode (.notify notification)).deliveries = s.deliveries ++ [d] ∧ d.key = key ∧
        d.envelope = envelope ∧ d.set = sub.set ∧ sub.place < d.began
  /-- A delivery that is over has called each subscription that it started with and that is still live once. -/
  delivered : ∀ d ∈ s.deliveries, d.isGoing = false → ∀ sub ∈ s.subscriptions, sub.isLive = true → sub.set = d.set →
    sub.place < d.began → d.calls.count (entryOf sub) = 1
  /-- No delivery calls an entry twice, or one that is no subscription of its channel. -/
  atMostOnce : ∀ d ∈ s.deliveries, d.calls.Nodup
  onlySubscribers : ∀ d ∈ s.deliveries, ∀ call ∈ d.calls, ∃ sub ∈ s.subscriptions, sub.key = d.key ∧ sub.set = d.set ∧
    call = entryOf sub
  /-- A live subscription is registered, with an entry of its own. -/
  registered : ∀ sub ∈ s.subscriptions, sub.isLive = true → s.closed = false → s.subscribers sub.key = some sub.set
  present : ∀ sub ∈ s.subscriptions, sub.isLive = true → entryOf sub ∈ (s.sets sub.set).receivers.entries
  own : ∀ (i j : Nat) (a b : LiveSubscription), s.subscriptions[i]? = some a → s.subscriptions[j]? = some b →
    a.isLive = true → b.isLive = true → a.set = b.set → entryOf a = entryOf b → i = j
  /-- What one subscription does leaves the others alone. -/
  others : ∀ (i j : Nat) (sub : LiveSubscription), i ≠ j → s.subscriptions[j]? = some sub →
    (s.step decode (.unsubscribe i)).subscriptions[j]? = some sub ∧ (s.step decode (.resume i)).subscriptions[j]? = some sub
  /-- A `subscribe` that waits succeeds when the connection is up. -/
  succeeds : ∀ (i : Nat) (sub : LiveSubscription), s.subscriptions[i]? = some sub → sub.phase = .connecting →
    s.connection = some .up → (s.step decode (.resume i)).subscriptions[i]? = some { sub with phase := .active }
  connects : s.connection ≠ some .failed

/-- The connection does not fail, no receiver is subscribed to a channel again that is there already, and a receiver throws
only when it is the last one. -/
def meets (s : PostgresLivePubSub Envelope) : PubSubAction → Bool
  | .subscribe channel receiver =>
    ((logicalChannel channel).bind s.subscribers).all fun set => !(s.sets set).receivers.has receiver
  | .connectFailed => !(decide (s.connection = some .connecting) || decide (s.connection = some .listening))
  | .threw i => (s.deliveries[i]?).all fun d => !d.isGoing || ((s.sets d.set).receivers.next d.place).isNone
  | _ => true

/-- Every action of a run `meets` its state. -/
def AllMeet (decode : Option JsString → Option (JsString × Envelope)) :
    PostgresLivePubSub Envelope → List PubSubAction → Prop
  | _, [] => True
  | s, action :: rest => s.meets action = true ∧ AllMeet decode (s.step decode action) rest

/-! ### The invariant -/

structure DeliveryRouted (s : PostgresLivePubSub Envelope) (d : LiveDelivery Envelope) : Prop where
  key : (s.sets d.set).key = d.key
  created : d.set < s.created
  ordered : d.calls.Pairwise fun a b => a.1 < b.1
  past : ∀ call ∈ d.calls, call.1 < d.place
  called : ∀ entry ∈ (s.sets d.set).receivers.entries, entry.1 < d.place → entry ∈ d.calls
  spent : d.isGoing = false → ∀ entry ∈ (s.sets d.set).receivers.entries, entry.1 < d.began → entry.1 < d.place
  subscribers : ∀ call ∈ d.calls, ∃ sub ∈ s.subscriptions, sub.key = d.key ∧ sub.set = d.set ∧ call = entryOf sub
  began : d.began ≤ (s.sets d.set).receivers.fresh
  placed : d.place ≤ (s.sets d.set).receivers.fresh

structure Routed (s : PostgresLivePubSub Envelope) : Prop where
  present : ∀ sub ∈ s.subscriptions, sub.isLive = true → entryOf sub ∈ (s.sets sub.set).receivers.entries
  registered : ∀ sub ∈ s.subscriptions, sub.isLive = true → s.closed = false → s.subscribers sub.key = some sub.set
  created : ∀ sub ∈ s.subscriptions, (s.sets sub.set).key = sub.key ∧ sub.set < s.created
  keyed : ∀ key set, s.subscribers key = some set → (s.sets set).key = key ∧ set < s.created
  own : ∀ (i j : Nat) (a b : LiveSubscription), s.subscriptions[i]? = some a → s.subscriptions[j]? = some b →
    a.isLive = true → b.isLive = true → a.set = b.set → a.receiver = b.receiver → i = j
  owned : ∀ set entry, entry ∈ (s.sets set).receivers.entries →
    ∃ sub ∈ s.subscriptions, sub.isLive = true ∧ sub.set = set ∧ entry = entryOf sub
  deliveries : ∀ d ∈ s.deliveries, DeliveryRouted s d
  connects : s.connection ≠ some .failed

theorem routed_create (databaseChannel : JsString) : Routed (create databaseChannel : PostgresLivePubSub Envelope) where
  present := by simp [create]
  registered := by simp [create]
  created := by simp [create]
  keyed := by simp [create]
  own := by simp [create]
  owned := by simp [create, LiveSet.empty]
  deliveries := by simp [create]
  connects := by simp [create]

variable {s t : PostgresLivePubSub Envelope} {decode : Option JsString → Option (JsString × Envelope)}

theorem Routed.connection (routed : Routed s) {connection : Option ListenConnection} (connects : connection ≠ some .failed) :
    Routed { s with connection } where
  present := routed.present
  registered := routed.registered
  created := routed.created
  keyed := routed.keyed
  own := routed.own
  owned := routed.owned
  deliveries d member :=
    { routed.deliveries d member with }
  connects := connects

/-! ### Deliveries -/

variable {d : LiveDelivery Envelope}

theorem DeliveryRouted.mono (routed : DeliveryRouted s d)
    (key : (t.sets d.set).key = (s.sets d.set).key) (created : s.created ≤ t.created)
    (fresh : (s.sets d.set).receivers.fresh ≤ (t.sets d.set).receivers.fresh)
    (entries : ∀ entry ∈ (t.sets d.set).receivers.entries,
      entry ∈ (s.sets d.set).receivers.entries ∨ (s.sets d.set).receivers.fresh ≤ entry.1)
    (subscriptions : ∀ sub ∈ s.subscriptions, ∃ kept ∈ t.subscriptions, kept.key = sub.key ∧ kept.set = sub.set ∧
      entryOf kept = entryOf sub) : DeliveryRouted t d where
  key := key.trans routed.key
  created := Nat.lt_of_lt_of_le routed.created created
  ordered := routed.ordered
  past := routed.past
  called := by
    intro entry member below
    rcases entries entry member with before | new
    · exact routed.called entry before below
    · have placed := routed.placed
      omega
  spent := by
    intro ended entry member below
    rcases entries entry member with before | new
    · exact routed.spent ended entry before below
    · have began := routed.began
      omega
  subscribers := by
    intro call member
    obtain ⟨sub, there, sameKey, sameSet, same⟩ := routed.subscribers call member
    obtain ⟨kept, inside, keptKey, keptSet, keptEntry⟩ := subscriptions sub there
    exact ⟨kept, inside, keptKey.trans sameKey, keptSet.trans sameSet, same.trans keptEntry.symm⟩
  began := Nat.le_trans routed.began fresh
  placed := Nat.le_trans routed.placed fresh

theorem DeliveryRouted.visit (routed : Routed s) (delivery : DeliveryRouted s d) :
    DeliveryRouted s (s.visit d) := by
  unfold PostgresLivePubSub.visit
  cases found : (s.sets d.set).receivers.next d.place with
  | none =>
    exact { delivery with spent := fun _ entry member _ => LiveSet.next_eq_none found member }
  | some entry =>
    obtain ⟨inside, ahead, first⟩ := LiveSet.next_eq_some found
    have bounded := (s.sets d.set).receivers.bounded entry inside
    exact {
      key := delivery.key
      created := delivery.created
      ordered := by
        refine List.pairwise_append.mpr ⟨delivery.ordered, List.pairwise_singleton .., fun call member last same => ?_⟩
        rw [List.mem_singleton.mp same]
        have past := delivery.past call member
        omega
      past := by
        intro call member
        rcases List.mem_append.mp member with before | last
        · have past := delivery.past call before
          simp only
          omega
        · rw [List.mem_singleton.mp last]
          exact Nat.lt_succ_self _
      called := by
        intro other member below
        simp only at below ⊢
        by_cases earlier : other.1 < d.place
        · exact List.mem_append_left _ (delivery.called other member earlier)
        · have least := first other member (by omega)
          rw [LiveSet.entry_unique member inside (by omega)]
          exact List.mem_append_right _ (List.mem_singleton_self _)
      spent := by
        intro ended other member below
        have past := delivery.spent ended other member below
        simp only
        omega
      subscribers := by
        intro call member
        rcases List.mem_append.mp member with before | last
        · exact delivery.subscribers call before
        · obtain ⟨sub, there, -, sameSet, same⟩ := routed.owned d.set entry inside
          refine ⟨sub, there, ?_, sameSet, (List.mem_singleton.mp last).trans same⟩
          rw [← (routed.created sub there).1, sameSet, delivery.key]
      began := delivery.began
      placed := bounded }

theorem DeliveryRouted.over_of_last (delivery : DeliveryRouted s d)
    (last : (s.sets d.set).receivers.next d.place = none) : DeliveryRouted s { d with isGoing := false } :=
  { delivery with spent := fun _ _ member _ => LiveSet.next_eq_none last member }

theorem Routed.withDeliveries (routed : Routed s) {deliveries : List (LiveDelivery Envelope)}
    (each : ∀ d ∈ deliveries, DeliveryRouted s d) : Routed { s with deliveries } where
  present := routed.present
  registered := routed.registered
  created := routed.created
  keyed := routed.keyed
  own := routed.own
  owned := routed.owned
  deliveries d member := { each d member with }
  connects := routed.connects

theorem routed_setDelivery (routed : Routed s) (i : Nat) (delivery : DeliveryRouted s d) :
    Routed (s.setDelivery i d) := by
  refine routed.withDeliveries fun other member => ?_
  rcases List.mem_or_eq_of_mem_set member with before | rfl
  · exact routed.deliveries other before
  · exact delivery

theorem routed_receive (routed : Routed s) (notification : PostgresNotification) :
    Routed (s.receive decode notification) := by
  unfold receive
  split
  · exact routed
  · split
    · exact routed
    · rename_i key envelope decoded
      split
      · exact routed
      · rename_i set held
        refine routed.withDeliveries fun d member => ?_
        rcases List.mem_append.mp member with before | last
        · exact routed.deliveries d before
        · rw [List.mem_singleton.mp last]
          refine DeliveryRouted.visit routed ?_
          obtain ⟨sameKey, small⟩ := routed.keyed key set held
          exact {
            key := sameKey
            created := small
            ordered := .nil
            past := by simp
            called := by simp
            spent := by simp
            subscribers := by simp
            began := Nat.le_refl _
            placed := Nat.zero_le _ }

/-! ### Sets -/

theorem key_setReceivers (set other : Nat) (receivers : LiveSet Nat) :
    ((s.setReceivers set receivers).sets other).key = (s.sets other).key := by
  by_cases same : other = set
  · subst same
    simp [setReceivers]
  · simp [setReceivers, same]

theorem receivers_setReceivers_self (set : Nat) (receivers : LiveSet Nat) :
    ((s.setReceivers set receivers).sets set).receivers = receivers := by simp [setReceivers]

theorem sets_setReceivers_other {set other : Nat} (receivers : LiveSet Nat) (different : other ≠ set) :
    (s.setReceivers set receivers).sets other = s.sets other := by simp [setReceivers, different]

theorem routed_register (routed : Routed s) (key : JsString) : Routed (s.register key).1 ∧
    (s.register key).1.subscribers key = some (s.register key).2 ∧
    (s.register key).1.closed = s.closed ∧
    (s.subscribers key = some (s.register key).2 ∧ (s.register key).1 = s ∨
      ((s.register key).1.sets (s.register key).2).receivers = .empty) := by
  unfold register
  cases held : s.subscribers key with
  | some set => exact ⟨routed, held, rfl, .inl ⟨rfl, rfl⟩⟩
  | none =>
    dsimp only
    refine ⟨?_, by simp, rfl, .inr (by simp)⟩
    have kept : ∀ {set}, set < s.created →
        Function.update s.sets s.created ⟨key, .empty⟩ set = s.sets set := by
      intro set small
      exact Function.update_of_ne (Nat.ne_of_lt small) _ _
    exact {
      present := by
        intro sub member live
        dsimp only
        rw [kept (routed.created sub member).2]
        exact routed.present sub member live
      registered := by
        intro sub member live isOpen
        have registered := routed.registered sub member live isOpen
        have other : sub.key ≠ key := by
          intro same
          rw [same, held] at registered
          cases registered
        simp only
        rw [Function.update_of_ne other]
        exact registered
      created := by
        intro sub member
        obtain ⟨same, small⟩ := routed.created sub member
        dsimp only
        rw [kept small]
        exact ⟨same, Nat.lt_succ_of_lt small⟩
      keyed := by
        intro other set registered
        simp only at registered ⊢
        by_cases same : other = key
        · subst same
          rw [Function.update_self] at registered
          obtain rfl := Option.some.inj registered
          exact ⟨by rw [Function.update_self], Nat.lt_succ_self _⟩
        · rw [Function.update_of_ne same] at registered
          obtain ⟨sameKey, small⟩ := routed.keyed other set registered
          rw [kept small]
          exact ⟨sameKey, Nat.lt_succ_of_lt small⟩
      own := routed.own
      owned := by
        intro set entry inside
        by_cases new : set = s.created
        · subst new
          simp [LiveSet.empty] at inside
        · simp only [Function.update_of_ne new] at inside
          exact routed.owned set entry inside
      deliveries := by
        intro d member
        have delivery := routed.deliveries d member
        have same := kept delivery.created
        refine delivery.mono (congrArg ReceiverSet.key same) (Nat.le_succ _) ?_ ?_ fun sub there => ⟨sub, there, rfl, rfl, rfl⟩
        · simp only
          rw [same]
        · intro entry inside
          simp only at inside
          rw [same] at inside
          exact .inl inside
      connects := routed.connects }

theorem routed_add (routed : Routed s) {key : JsString} {receiver set : Nat} (held : s.subscribers key = some set)
    (absent : (s.sets set).receivers.has receiver = false) :
    Routed { s.setReceivers set ((s.sets set).receivers.add receiver) with
      subscriptions := s.subscriptions ++ [⟨key, receiver, set, (s.sets set).receivers.place receiver, .connecting⟩] } := by
  obtain ⟨keyOfSet, small⟩ := routed.keyed key set held
  have place := LiveSet.place_of_absent absent
  have grown : ∀ other entry, entry ∈ (s.sets other).receivers.entries →
      entry ∈ ((s.setReceivers set ((s.sets set).receivers.add receiver)).sets other).receivers.entries := by
    intro other entry inside
    by_cases same : other = set
    · subst same
      rw [receivers_setReceivers_self, LiveSet.mem_add_of_absent absent]
      exact .inl inside
    · rw [sets_setReceivers_other _ same]
      exact inside
  have apart : ∀ sub ∈ s.subscriptions, sub.isLive = true → sub.set = set → sub.receiver ≠ receiver := by
    intro sub member live same
    have inside := routed.present sub member live
    rw [same] at inside
    exact LiveSet.not_has absent inside
  exact {
    present := by
      intro sub member live
      rcases List.mem_append.mp member with before | last
      · exact grown _ _ (routed.present sub before live)
      · rw [List.mem_singleton.mp last]
        simp only [entryOf, receivers_setReceivers_self, LiveSet.mem_add_of_absent absent, place]
        exact .inr trivial
    registered := by
      intro sub member live isOpen
      rcases List.mem_append.mp member with before | last
      · exact routed.registered sub before live isOpen
      · rw [List.mem_singleton.mp last]
        exact held
    created := by
      intro sub member
      simp only
      rw [key_setReceivers]
      rcases List.mem_append.mp member with before | last
      · exact routed.created sub before
      · rw [List.mem_singleton.mp last]
        exact ⟨keyOfSet, small⟩
    keyed := by
      intro other set registered
      simp only
      rw [key_setReceivers]
      exact routed.keyed other set registered
    own := by
      intro i j a b foundA foundB liveA liveB sameSet sameReceiver
      rcases getElem?_concat_cases foundA with beforeA | ⟨rfl, rfl⟩ <;>
        rcases getElem?_concat_cases foundB with beforeB | ⟨rfl, rfl⟩
      · exact routed.own i j a b beforeA beforeB liveA liveB sameSet sameReceiver
      · exact (apart a (List.mem_of_getElem? beforeA) liveA sameSet sameReceiver).elim
      · exact (apart b (List.mem_of_getElem? beforeB) liveB sameSet.symm sameReceiver.symm).elim
      · rfl
    owned := by
      intro other entry inside
      have before (inside : entry ∈ (s.sets other).receivers.entries) :
          ∃ sub ∈ s.subscriptions ++ [⟨key, receiver, set, (s.sets set).receivers.place receiver, .connecting⟩],
            sub.isLive = true ∧ sub.set = other ∧ entry = entryOf sub := by
        obtain ⟨sub, member, owns⟩ := routed.owned other entry inside
        exact ⟨sub, List.mem_append_left _ member, owns⟩
      by_cases same : other = set
      · subst same
        simp only [receivers_setReceivers_self, LiveSet.mem_add_of_absent absent] at inside
        rcases inside with old | rfl
        · exact before old
        · refine ⟨_, List.mem_append_right _ (List.mem_singleton_self _), rfl, rfl, ?_⟩
          rw [entryOf, place]
      · rw [show _ = s.sets other from sets_setReceivers_other _ same] at inside
        exact before inside
    deliveries := by
      intro d member
      have delivery := routed.deliveries d member
      refine delivery.mono (key_setReceivers ..) (Nat.le_refl _) ?_ ?_ fun sub there =>
        ⟨sub, List.mem_append_left _ there, rfl, rfl, rfl⟩
      · by_cases same : d.set = set
        · simp only [same, receivers_setReceivers_self, LiveSet.fresh_add_of_absent absent]
          exact Nat.le_succ _
        · simp only [sets_setReceivers_other _ same]
          exact Nat.le_refl _
      · intro entry inside
        by_cases same : d.set = set
        · simp only [same, receivers_setReceivers_self, LiveSet.mem_add_of_absent absent] at inside ⊢
          rcases inside with old | rfl
          · exact .inl old
          · exact .inr (Nat.le_refl _)
        · simp only [sets_setReceivers_other _ same] at inside
          exact .inl inside
    connects := routed.connects }

theorem routed_subscribe (routed : Routed s) {channel : JsString} {receiver : Nat}
    (fresh : s.meets (.subscribe channel receiver) = true) : Routed (s.subscribe channel receiver) := by
  unfold subscribe
  split
  · exact routed
  · cases named : logicalChannel channel with
    | none => exact routed
    | some key =>
      obtain ⟨registered, held, -, was⟩ := routed_register routed key
      have absent : ((s.register key).1.sets (s.register key).2).receivers.has receiver = false := by
        rcases was with ⟨before, same⟩ | new
        · simpa [meets, named, before, same] using fresh
        · rw [new]
          rfl
      have added := routed_add registered held absent
      simp only [addReceiver, ensureConnection]
      split
      · exact added
      · exact added.connection (by decide)

/-! ### Subscriptions that go on or end -/

section
variable {i : Nat} {sub : LiveSubscription}

theorem at_setSubscription {phase : SubscriptionPhase} (found : s.subscriptions[i]? = some sub) {j : Nat}
    {a : LiveSubscription} (there : (s.setSubscription i sub phase).subscriptions[j]? = some a) :
    i = j ∧ a = { sub with phase } ∨ i ≠ j ∧ s.subscriptions[j]? = some a := by
  obtain ⟨small, -⟩ := List.getElem?_eq_some_iff.mp found
  rw [setSubscription, List.getElem?_set] at there
  by_cases here : i = j
  · subst here
    simp only [small, if_true] at there
    exact .inl ⟨rfl, (Option.some.inj there).symm⟩
  · rw [if_neg here] at there
    exact .inr ⟨here, there⟩

theorem stands_setSubscription (phase : SubscriptionPhase) (found : s.subscriptions[i]? = some sub)
    {a : LiveSubscription} (inside : a ∈ s.subscriptions) : ∃ b ∈ (s.setSubscription i sub phase).subscriptions, b.key = a.key ∧
      b.set = a.set ∧ entryOf b = entryOf a ∧ (b = a ∨ a = sub ∧ b = { sub with phase }) := by
  by_cases same : a = sub
  · subst same
    obtain ⟨small, -⟩ := List.getElem?_eq_some_iff.mp found
    exact ⟨_, List.mem_set small _, rfl, rfl, rfl, .inr ⟨rfl, rfl⟩⟩
  · obtain ⟨j, there⟩ := List.mem_iff_getElem?.mp inside
    have apart : i ≠ j := by
      rintro rfl
      rw [found] at there
      exact same (Option.some.inj there).symm
    exact ⟨a, List.mem_of_getElem? ((List.getElem?_set_ne apart).trans there), rfl, rfl, rfl, .inl rfl⟩

theorem routed_setSubscription {phase : SubscriptionPhase} (routed : Routed s) (found : s.subscriptions[i]? = some sub)
    (live : sub.isLive = true) (stays : ({ sub with phase } : LiveSubscription).isLive = true) :
    Routed (s.setSubscription i sub phase) := by
  have before : ∀ (j : Nat) (a : LiveSubscription), (s.setSubscription i sub phase).subscriptions[j]? = some a →
      ∃ b, s.subscriptions[j]? = some b ∧ b.isLive = a.isLive ∧ b.key = a.key ∧ b.set = a.set ∧ b.receiver = a.receiver ∧
        entryOf b = entryOf a := by
    intro j a there
    rcases at_setSubscription found there with ⟨rfl, rfl⟩ | ⟨-, held⟩
    · exact ⟨sub, found, live.trans stays.symm, rfl, rfl, rfl, rfl⟩
    · exact ⟨a, held, rfl, rfl, rfl, rfl, rfl⟩
  have listed : ∀ a ∈ (s.setSubscription i sub phase).subscriptions, ∃ b ∈ s.subscriptions,
      b.isLive = a.isLive ∧ b.key = a.key ∧ b.set = a.set ∧ entryOf b = entryOf a := by
    intro a inside
    obtain ⟨j, there⟩ := List.mem_iff_getElem?.mp inside
    obtain ⟨b, held, sameLive, sameKey, sameSet, -, same⟩ := before j a there
    exact ⟨b, List.mem_of_getElem? held, sameLive, sameKey, sameSet, same⟩
  exact {
    present := by
      intro a inside going
      obtain ⟨b, held, sameLive, -, sameSet, same⟩ := listed a inside
      rw [← same, ← sameSet]
      exact routed.present b held (sameLive.trans going)
    registered := by
      intro a inside going isOpen
      obtain ⟨b, held, sameLive, sameKey, sameSet, -⟩ := listed a inside
      rw [← sameKey, ← sameSet]
      exact routed.registered b held (sameLive.trans going) isOpen
    created := by
      intro a inside
      obtain ⟨b, held, -, sameKey, sameSet, -⟩ := listed a inside
      rw [← sameKey, ← sameSet]
      exact routed.created b held
    keyed := routed.keyed
    own := by
      intro j k a b foundA foundB liveA liveB sameSet sameReceiver
      obtain ⟨c, heldC, liveC, -, setC, receiverC, -⟩ := before j a foundA
      obtain ⟨d, heldD, liveD, -, setD, receiverD, -⟩ := before k b foundB
      refine routed.own j k c d heldC heldD (liveC.trans liveA) (liveD.trans liveB) ?_ ?_
      · rw [setC, setD, sameSet]
      · rw [receiverC, receiverD, sameReceiver]
    owned := by
      intro set entry inside
      obtain ⟨a, held, going, sameSet, same⟩ := routed.owned set entry inside
      obtain ⟨b, there, -, setB, entryB, either⟩ := stands_setSubscription _ found held
      have stillLive : b.isLive = true := by
        rcases either with rfl | ⟨-, rfl⟩
        · exact going
        · exact stays
      exact ⟨b, there, stillLive, setB.trans sameSet, same.trans entryB.symm⟩
    deliveries := by
      intro d inside
      refine (routed.deliveries d inside).mono rfl (Nat.le_refl _) (Nat.le_refl _) (fun _ there => .inl there) fun a held => ?_
      obtain ⟨b, there, sameKey, sameSet, same, -⟩ := stands_setSubscription _ found held
      exact ⟨b, there, sameKey, sameSet, same⟩
    connects := routed.connects }

end

theorem sets_removeReceiver (sub : LiveSubscription) : (s.removeReceiver sub).sets =
    (s.setReceivers sub.set ((s.sets sub.set).receivers.delete sub.receiver)).sets := by
  unfold removeReceiver
  simp only
  split <;> rfl

theorem kept_removeReceiver (sub : LiveSubscription) : (s.removeReceiver sub).subscriptions = s.subscriptions ∧
    (s.removeReceiver sub).deliveries = s.deliveries ∧ (s.removeReceiver sub).created = s.created ∧
    (s.removeReceiver sub).connection = s.connection ∧ (s.removeReceiver sub).closed = s.closed := by
  unfold removeReceiver
  simp only
  split <;> exact ⟨rfl, rfl, rfl, rfl, rfl⟩

theorem subscribers_removeReceiver (sub : LiveSubscription) (key : JsString) :
    (s.removeReceiver sub).subscribers key = s.subscribers key ∨
      key = sub.key ∧ (s.removeReceiver sub).subscribers key = none ∧
        ((s.sets sub.set).receivers.delete sub.receiver).size = 0 := by
  unfold removeReceiver
  simp only [receivers_setReceivers_self]
  split
  · rename_i emptied
    by_cases same : key = sub.key
    · subst same
      exact .inr ⟨rfl, Function.update_self .., emptied⟩
    · exact .inl (Function.update_of_ne same ..)
  · exact .inl rfl

section
variable {i : Nat} {sub : LiveSubscription}

theorem mem_removeReceiver (set : Nat) (entry : Nat × Nat) : entry ∈ ((s.removeReceiver sub).sets set).receivers.entries ↔
    entry ∈ (s.sets set).receivers.entries ∧ (set = sub.set → entry.2 ≠ sub.receiver) := by
  rw [sets_removeReceiver]
  by_cases same : set = sub.set
  · subst same
    rw [receivers_setReceivers_self, LiveSet.mem_delete]
    simp
  · rw [sets_setReceivers_other _ same]
    simp [same]

theorem key_removeReceiver (set : Nat) : ((s.removeReceiver sub).sets set).key = (s.sets set).key := by
  rw [sets_removeReceiver]
  exact key_setReceivers ..

theorem fresh_removeReceiver (set : Nat) :
    (s.sets set).receivers.fresh = ((s.removeReceiver sub).sets set).receivers.fresh := by
  rw [sets_removeReceiver]
  by_cases same : set = sub.set
  · subst same
    rw [receivers_setReceivers_self]
    rfl
  · rw [sets_setReceivers_other _ same]

theorem found_removeReceiver (found : s.subscriptions[i]? = some sub) :
    (s.removeReceiver sub).subscriptions[i]? = some sub := by
  rw [(kept_removeReceiver sub).1]
  exact found

/-- The subscriptions that are live after a removal are the other live ones. -/
theorem live_remove (found : s.subscriptions[i]? = some sub) {j : Nat} {a : LiveSubscription}
    (there : ((s.removeReceiver sub).setSubscription i sub .spent).subscriptions[j]? = some a) (going : a.isLive = true) :
    s.subscriptions[j]? = some a ∧ i ≠ j := by
  rcases at_setSubscription (found_removeReceiver found) there with ⟨-, rfl⟩ | ⟨apart, held⟩
  · cases going
  · rw [(kept_removeReceiver sub).1] at held
    exact ⟨held, apart⟩

theorem listed_remove (found : s.subscriptions[i]? = some sub) {a : LiveSubscription}
    (inside : a ∈ ((s.removeReceiver sub).setSubscription i sub .spent).subscriptions) :
    ∃ b ∈ s.subscriptions, b.key = a.key ∧ b.set = a.set := by
  obtain ⟨j, there⟩ := List.mem_iff_getElem?.mp inside
  rcases at_setSubscription (found_removeReceiver found) there with ⟨-, rfl⟩ | ⟨-, held⟩
  · exact ⟨sub, List.mem_of_getElem? found, rfl, rfl⟩
  · rw [(kept_removeReceiver sub).1] at held
    exact ⟨a, List.mem_of_getElem? held, rfl, rfl⟩

theorem present_remove (routed : Routed s) (found : s.subscriptions[i]? = some sub) (live : sub.isLive = true)
    {j : Nat} {a : LiveSubscription} (held : s.subscriptions[j]? = some a) (going : a.isLive = true) (apart : i ≠ j) :
    entryOf a ∈ ((s.removeReceiver sub).sets a.set).receivers.entries := by
  refine (mem_removeReceiver ..).mpr ⟨routed.present a (List.mem_of_getElem? held) going, fun sameSet same => ?_⟩
  exact apart (routed.own i j sub a found held live going sameSet.symm same.symm)

/-- The key of another live subscription stays: its set still has a receiver. -/
theorem registered_remove (routed : Routed s) (found : s.subscriptions[i]? = some sub) (live : sub.isLive = true)
    {j : Nat} {a : LiveSubscription} (held : s.subscriptions[j]? = some a) (going : a.isLive = true) (apart : i ≠ j)
    (isOpen : s.closed = false) : (s.removeReceiver sub).subscribers a.key = some a.set := by
  have registered := routed.registered a (List.mem_of_getElem? held) going isOpen
  rcases subscribers_removeReceiver (s := s) sub a.key with same | ⟨sameKey, -, emptied⟩
  · exact same.trans registered
  · have sameSet : a.set = sub.set := by
      rw [sameKey, routed.registered sub (List.mem_of_getElem? found) live isOpen] at registered
      exact (Option.some.inj registered).symm
    have inSet := present_remove routed found live held going apart
    rw [sets_removeReceiver, sameSet, receivers_setReceivers_self] at inSet
    exact (LiveSet.size_pos_of_mem inSet emptied).elim

theorem deliveryRouted_remove (found : s.subscriptions[i]? = some sub) {d : LiveDelivery Envelope}
    (routed : DeliveryRouted s d) : DeliveryRouted ((s.removeReceiver sub).setSubscription i sub .spent) d := by
  obtain ⟨subscriptions, -, created, -, -⟩ := kept_removeReceiver (s := s) sub
  refine routed.mono (key_removeReceiver d.set) (Nat.le_of_eq created.symm) (Nat.le_of_eq (fresh_removeReceiver d.set))
    (fun entry there => .inl ((mem_removeReceiver d.set entry).mp there).1) fun a held => ?_
  obtain ⟨b, there, sameKey, sameSet, same, -⟩ :=
    stands_setSubscription .spent (found_removeReceiver found) (subscriptions.symm ▸ held)
  exact ⟨b, there, sameKey, sameSet, same⟩

theorem routed_remove (routed : Routed s) (found : s.subscriptions[i]? = some sub) (live : sub.isLive = true) :
    Routed ((s.removeReceiver sub).setSubscription i sub .spent) := by
  obtain ⟨subscriptions, deliveries, created, connection, closed⟩ := kept_removeReceiver (s := s) sub
  exact {
    present := by
      intro a inside going
      obtain ⟨j, there⟩ := List.mem_iff_getElem?.mp inside
      obtain ⟨held, apart⟩ := live_remove found there going
      exact present_remove routed found live held going apart
    registered := by
      intro a inside going isOpen
      obtain ⟨j, there⟩ := List.mem_iff_getElem?.mp inside
      obtain ⟨held, apart⟩ := live_remove found there going
      exact registered_remove routed found live held going apart (closed.symm.trans isOpen)
    created := by
      intro a inside
      obtain ⟨b, held, sameKey, sameSet⟩ := listed_remove found inside
      have was := routed.created b held
      rw [sameKey, sameSet] at was
      exact ⟨(key_removeReceiver a.set).trans was.1, Nat.lt_of_lt_of_eq was.2 created.symm⟩
    keyed := by
      intro key set registered
      have before : s.subscribers key = some set := by
        rcases subscribers_removeReceiver (s := s) sub key with same | ⟨-, gone, -⟩
        · exact same.symm.trans registered
        · cases gone.symm.trans registered
      obtain ⟨sameKey, was⟩ := routed.keyed key set before
      exact ⟨(key_removeReceiver set).trans sameKey, Nat.lt_of_lt_of_eq was created.symm⟩
    own := by
      intro j k a b foundA foundB liveA liveB sameSet sameReceiver
      exact routed.own j k a b (live_remove found foundA liveA).1 (live_remove found foundB liveB).1 liveA liveB sameSet
        sameReceiver
    owned := by
      intro set entry inside
      obtain ⟨before, different⟩ := (mem_removeReceiver set entry).mp inside
      obtain ⟨a, held, going, sameSet, same⟩ := routed.owned set entry before
      obtain ⟨b, there, -, -, -, either⟩ :=
        stands_setSubscription .spent (found_removeReceiver found) (subscriptions.symm ▸ held)
      rcases either with rfl | ⟨rfl, -⟩
      · exact ⟨b, there, going, sameSet, same⟩
      · exact (different sameSet.symm (by rw [same]; rfl)).elim
    deliveries := by
      intro d inside
      rw [setSubscription, deliveries] at inside
      exact deliveryRouted_remove found (routed.deliveries d inside)
    connects := by
      rw [setSubscription, connection]
      exact routed.connects }

end

/-! ### Steps -/

theorem routed_resume (routed : Routed s) (i : Nat) : Routed (s.resume i) := by
  unfold resume
  split
  · rename_i sub found
    split
    · rename_i connecting _
      exact routed_setSubscription routed found (by simp [LiveSubscription.isLive, connecting]) rfl
    · rename_i failed
      exact (routed.connects failed).elim
    · exact routed
  · exact routed

theorem routed_unsubscribe (routed : Routed s) (i : Nat) : Routed (s.unsubscribe i) := by
  unfold unsubscribe
  split
  · rename_i sub found
    split
    · rename_i active
      exact routed_remove routed found (by simp [LiveSubscription.isLive, active])
    · exact routed
  · exact routed

theorem routed_close (routed : Routed s) : Routed s.close where
  present := routed.present
  registered := by
    intro sub member live isOpen
    cases isOpen
  created := routed.created
  keyed := by
    intro key set registered
    cases registered
  own := routed.own
  owned := routed.owned
  deliveries d member := { routed.deliveries d member with }
  connects := routed.connects

/-- Every kind of step keeps the routing. -/
theorem routed_step (routed : Routed s) {action : PubSubAction} (meets : s.meets action = true) :
    Routed (s.step decode action) := by
  cases action with
  | subscribe channel receiver => exact routed_subscribe routed meets
  | resume i => exact routed_resume routed i
  | unsubscribe i => exact routed_unsubscribe routed i
  | connected =>
    simp only [step]
    split
    · exact routed.connection (by decide)
    · exact routed
  | listened =>
    simp only [step]
    split
    · exact routed.connection (by decide)
    · exact routed
  | connectFailed =>
    simp only [step]
    split
    · rename_i going
      rcases going with connecting | listening
      · simp [PostgresLivePubSub.meets, connecting] at meets
      · simp [PostgresLivePubSub.meets, listening] at meets
    · exact routed
  | notify notification =>
    simp only [step]
    split
    · exact routed_receive routed notification
    · exact routed
  | returned i =>
    simp only [step]
    split
    · rename_i d found
      split
      · exact routed_setDelivery routed i (DeliveryRouted.visit routed (routed.deliveries d (List.mem_of_getElem? found)))
      · exact routed
    · exact routed
  | threw i =>
    simp only [step]
    split
    · rename_i d found
      split
      · rename_i going
        have last : (s.sets d.set).receivers.next d.place = none := by
          simpa [PostgresLivePubSub.meets, found, going] using meets
        exact routed_setDelivery routed i ((routed.deliveries d (List.mem_of_getElem? found)).over_of_last last)
      · exact routed
    · exact routed
  | publish payload => exact routed
  | close =>
    simp only [step]
    split
    · exact routed
    · exact routed_close routed

theorem routed_run (routed : Routed s) {actions : List PubSubAction} (meets : s.AllMeet decode actions) :
    Routed (s.run decode actions) := by
  induction actions generalizing s with
  | nil => exact routed
  | cons action rest ih => exact ih (routed_step routed meets.1) meets.2

/-! ### Routing -/

theorem visit_kept (d : LiveDelivery Envelope) : (s.visit d).key = d.key ∧ (s.visit d).envelope = d.envelope ∧
    (s.visit d).set = d.set ∧ (s.visit d).began = d.began := by
  unfold visit
  split <;> exact ⟨rfl, rfl, rfl, rfl⟩

theorem DeliveryRouted.nodup (delivery : DeliveryRouted s d) : d.calls.Nodup := by
  refine delivery.ordered.imp ?_
  rintro a b less rfl
  exact Nat.lt_irrefl _ less

theorem others_unsubscribe {i j : Nat} (apart : i ≠ j) : (s.unsubscribe i).subscriptions[j]? = s.subscriptions[j]? := by
  unfold unsubscribe
  split
  · split
    · rw [setSubscription, (kept_removeReceiver _).1, List.getElem?_set_ne apart]
    · rfl
  · rfl

theorem others_resume {i j : Nat} (apart : i ≠ j) : (s.resume i).subscriptions[j]? = s.subscriptions[j]? := by
  unfold resume
  split
  · split
    · rw [setSubscription, List.getElem?_set_ne apart]
    · rw [setSubscription, (kept_removeReceiver _).1, List.getElem?_set_ne apart]
    · rfl
  · rfl

theorem routes_of_routed (routed : Routed s) : Routes decode s where
  accepts := by
    intro notification key envelope attached isOpen channel decoded sub member live sameKey
    have held := routed.registered sub member live isOpen
    rw [sameKey] at held
    have stepped : (s.step decode (.notify notification)).deliveries = s.deliveries ++
        [s.visit ⟨key, envelope, sub.set, (s.sets sub.set).receivers.fresh, 0, [], true⟩] := by
      simp [step, attached, receive, isOpen, channel, decoded, held]
    obtain ⟨visitKey, visitEnvelope, visitSet, visitBegan⟩ :=
      visit_kept (s := s) ⟨key, envelope, sub.set, (s.sets sub.set).receivers.fresh, 0, [], true⟩
    refine ⟨_, stepped, visitKey, visitEnvelope, visitSet, ?_⟩
    rw [visitBegan]
    exact (s.sets sub.set).receivers.bounded _ (routed.present sub member live)
  delivered := by
    intro d inside spent sub member live sameSet before
    have delivery := routed.deliveries d inside
    have present := routed.present sub member live
    rw [sameSet] at present
    have past := delivery.spent spent _ present before
    exact List.count_eq_one_of_mem delivery.nodup (delivery.called _ present past)
  atMostOnce d inside := (routed.deliveries d inside).nodup
  onlySubscribers d inside := (routed.deliveries d inside).subscribers
  registered := routed.registered
  present := routed.present
  own := by
    intro i j a b foundA foundB liveA liveB sameSet same
    exact routed.own i j a b foundA foundB liveA liveB sameSet (Prod.mk.inj same).2
  others := by
    intro i j sub apart found
    exact ⟨(others_unsubscribe apart).trans found, (others_resume apart).trans found⟩
  succeeds := by
    intro i sub found connecting up
    obtain ⟨small, -⟩ := List.getElem?_eq_some_iff.mp found
    have stepped : s.step decode (.resume i) = s.setSubscription i sub .active := by
      simp [step, resume, found, connecting, up]
    rw [stepped, setSubscription, List.getElem?_set_self small]
  connects := routed.connects

/-- Notifications reach exactly the live subscriptions of their channel, no subscription takes anything from another one and
every `subscribe` succeeds, as long as the connection does not fail, no receiver is subscribed to a channel twice at a time
and no receiver throws that another one comes after. -/
theorem notifications_routed (decode : Option JsString → Option (JsString × Envelope)) (databaseChannel : JsString)
    (actions : List PubSubAction) (meets : (create databaseChannel).AllMeet decode actions) :
    Routes decode ((create databaseChannel).run decode actions) :=
  routes_of_routed (routed_run (routed_create databaseChannel) meets)

/-! ### Samples -/

def sampleEnvelope : Json := .object [("version", .str (js "handrail.live-conversation-activity.v1")),
  ("sequence", .num (.ofNat 1)), ("deliveryId", .str (js "d")),
  ("record", .object [("conversationId", .str (js "c")), ("turnStatus", .str (js "running")), ("unread", .bool false)])]

def samplePayload : JsString := js ("\x7b\"version\":1,\"channel\":\"updates\",\"envelope\":\x7b\"version\":" ++
  "\"handrail.live-conversation-activity.v1\",\"sequence\":1,\"deliveryId\":\"d\",\"record\":\x7b\"conversationId\":\"c\"," ++
  "\"turnStatus\":\"running\",\"unread\":false\x7d\x7d\x7d")

def sampleDecode (payload : Option JsString) : Option (JsString × Json) :=
  if payload = some samplePayload then some (js "updates", sampleEnvelope) else none

def sampleNotification : PostgresNotification := ⟨js "handrail_ai_live_v1", some samplePayload⟩

def sampleSubscriptions (first second : Nat) : List PubSubAction := [.subscribe (js "updates") first, .connected, .listened,
  .resume 0, .subscribe (js "updates") second, .resume 1]

abbrev samplePubSub : PostgresLivePubSub Json := create (js "handrail_ai_live_v1")

/-- A notification that both receivers are handed, before one of them unsubscribes. -/
theorem notifications_routed_both :
    Routes sampleDecode (samplePubSub.run sampleDecode
      (sampleSubscriptions 1 2 ++ [.notify sampleNotification, .returned 0, .threw 0, .unsubscribe 0])) ∧
    (samplePubSub.run sampleDecode
      (sampleSubscriptions 1 2 ++ [.notify sampleNotification, .returned 0, .threw 0, .unsubscribe 0])).deliveries.map
        (fun d => (d.isGoing, d.calls)) = [(false, [(0, 1), (1, 2)])] := by
  refine ⟨notifications_routed sampleDecode _ _ ⟨?_, ?_, ?_, ?_, ?_, ?_, ?_, ?_, ?_, ?_, trivial⟩, ?_⟩ <;> decide +kernel

/-- A connection that fails once fails every later `subscribe`; a receiver that throws keeps a notification from the next
one; and a receiver that is subscribed twice loses both subscriptions when it unsubscribes one. -/
theorem routing_broken : ∃ failed thrown twice,
    failed = samplePubSub.run sampleDecode
      [.subscribe (js "updates") 1, .connectFailed, .resume 0, .subscribe (js "updates") 2, .resume 1] ∧
    failed.connection = some .failed ∧ failed.subscriptions.map (fun sub => sub.phase) = [.spent, .spent] ∧
    ¬Routes sampleDecode failed ∧
    thrown = samplePubSub.run sampleDecode (sampleSubscriptions 1 2 ++ [.notify sampleNotification, .threw 0]) ∧
    thrown.deliveries.map (fun d => (d.isGoing, d.calls)) = [(false, [(0, 1)])] ∧
    thrown.subscriptions.map (fun sub => sub.phase) = [.active, .active] ∧ ¬Routes sampleDecode thrown ∧
    twice = samplePubSub.run sampleDecode (sampleSubscriptions 1 1 ++ [.unsubscribe 0]) ∧
    twice.subscriptions.map (fun sub => sub.phase) = [.spent, .active] ∧ twice.subscribers (js "updates") = none ∧
    ¬Routes sampleDecode twice := by
  refine ⟨_, _, _, rfl, by decide +kernel, by decide +kernel, ?_, rfl, by decide +kernel, by decide +kernel, ?_, rfl,
    by decide +kernel, by decide +kernel, ?_⟩
  · intro routes
    exact routes.connects (by decide +kernel)
  · intro routes
    have missed : ∃ d ∈ (samplePubSub.run sampleDecode (sampleSubscriptions 1 2 ++
      [.notify sampleNotification, .threw 0])).deliveries,
        d.isGoing = false ∧ ∃ sub ∈ (samplePubSub.run sampleDecode
          (sampleSubscriptions 1 2 ++ [.notify sampleNotification, .threw 0])).subscriptions,
        sub.isLive = true ∧ sub.set = d.set ∧ sub.place < d.began ∧ d.calls.count (entryOf sub) ≠ 1 := by decide +kernel
    obtain ⟨d, inside, spent, sub, member, live, sameSet, before, missing⟩ := missed
    exact missing (routes.delivered d inside spent sub member live sameSet before)
  · intro routes
    have lost : ∃ sub ∈ (samplePubSub.run sampleDecode (sampleSubscriptions 1 1 ++ [.unsubscribe 0])).subscriptions,
        sub.isLive = true ∧ (samplePubSub.run sampleDecode (sampleSubscriptions 1 1 ++ [.unsubscribe 0])).closed = false ∧
        (samplePubSub.run sampleDecode (sampleSubscriptions 1 1 ++ [.unsubscribe 0])).subscribers sub.key ≠ some sub.set := by
      decide +kernel
    obtain ⟨sub, member, live, isOpen, missing⟩ := lost
    exact missing (routes.registered sub member live isOpen)

end PostgresLivePubSub

end Handrail.Postgres

import Handrail.Presence.Convergence
import Handrail.Presence.Histories
import Mathlib.Data.Fintype.Basic

/-!
# What every step keeps

Every action that meets the condition keeps the hubs consistent, and so a run of them converges.
-/

namespace Handrail.Presence
open Js Conversation

namespace PresenceWorld
variable {H : Type} {w : PresenceWorld H} {h : H} {e : LivePresenceEnvelope} {channel : JsString}

variable [DecidableEq H]

/-! ### Processing an envelope -/

/-- What `emit` does when it does not suppress the envelope. -/
def processedBy (w : PresenceWorld H) (h : H) (e : LivePresenceEnvelope) : PresenceWorld H where
  hubs := Function.update w.hubs h ((w.hubs h).process e)
  queues := w.queues.mapIdx fun place q => if place ∈ (w.hubs h).subscribers e.conversationId then q.push e else q
  published := w.published
  offered := Function.update w.offered h (w.offered h ++ [e.place])
  processed := Function.update w.processed h (w.processed h ++ [e])
  readings := w.readings

theorem emit_eq (w : PresenceWorld H) (h : H) (e : LivePresenceEnvelope) :
    w.emit h e = if e.deliveryId ∈ (w.hubs h).seen then
      { w with offered := Function.update w.offered h (w.offered h ++ [e.place]) } else w.processedBy h e := rfl

theorem processed_self : (w.processedBy h e).processed h = w.processed h ++ [e] := Function.update_self ..

theorem processed_other {g : H} (different : g ≠ h) : (w.processedBy h e).processed g = w.processed g :=
  Function.update_of_ne different ..

theorem offered_self : (w.processedBy h e).offered h = w.offered h ++ [e.place] := Function.update_self ..

theorem offered_other {g : H} (different : g ≠ h) : (w.processedBy h e).offered g = w.offered g :=
  Function.update_of_ne different ..

theorem hub_self : (w.processedBy h e).hubs h = (w.hubs h).process e := Function.update_self ..

theorem hub_other {g : H} (different : g ≠ h) : (w.processedBy h e).hubs g = w.hubs g := Function.update_of_ne different ..

theorem mem_processedBy {g : H} {a : LivePresenceEnvelope} (member : a ∈ (w.processedBy h e).processed g) :
    a ∈ w.processed g ∨ g = h ∧ a = e := by
  by_cases here : g = h
  · subst here
    rw [processed_self] at member
    simpa using member
  · rw [processed_other here] at member
    exact .inl member

theorem processed_subset (g : H) : w.processed g ⊆ (w.processedBy h e).processed g := by
  intro a member
  by_cases here : g = h
  · subst here
    rw [processed_self]
    exact List.mem_append_left _ member
  · rwa [processed_other here]

theorem before_processedBy {g : H} {a b : Nat} (before : (w.processedBy h e).Before g a b) :
    w.Before g a b ∨ g = h ∧ b = e.place ∧ ∃ f ∈ w.processed h, f.place = a := by
  by_cases here : g = h
  · subst here
    rw [Before, processed_self, List.map_append, List.map_singleton, pair_sublist_concat] at before
    rcases before with inside | ⟨member, last⟩
    · exact .inl inside
    · exact .inr ⟨rfl, last, List.mem_map.mp member⟩
  · rw [Before, processed_other here] at before
    exact .inl before

theorem session_processedBy (g : H) (id key : JsString) : (w.processedBy h e).session g id key =
    if g = h ∧ e.conversationId = id ∧ e.key = key then w.session h id key ++ [e] else w.session g id key := by
  by_cases here : g = h
  · subst here
    rw [session, processed_self, List.filter_append]
    by_cases mine : e.conversationId = id ∧ e.key = key
    · simp [mine, session]
    · rw [if_neg (fun all => mine all.2), session, List.filter_singleton]
      simp [mine]
  · rw [session, processed_other here, if_neg (fun all => here all.1), session]

theorem subscribers_processedBy (g : H) : ((w.processedBy h e).hubs g).subscribers = (w.hubs g).subscribers := by
  by_cases here : g = h
  · subst here
    rw [hub_self]
    rfl
  · rw [hub_other here]

theorem getElem?_processedBy (place : Nat) : (w.processedBy h e).queues[place]? =
    w.queues[place]?.map fun q => if place ∈ (w.hubs h).subscribers e.conversationId then q.push e else q :=
  List.getElem?_mapIdx

theorem queue_processedBy (consistent : w.Consistent) {place : Nat} {q : LivePresenceQueue H}
    (found : (w.processedBy h e).queues[place]? = some q) : (w.processedBy h e).QueueConsistent place q := by
  rw [getElem?_processedBy, Option.map_eq_some_iff] at found
  obtain ⟨before, held, rfl⟩ := found
  obtain ⟨waiting, subscribed, received⟩ := consistent.queues place before held
  by_cases mine : place ∈ (w.hubs h).subscribers e.conversationId
  · rw [if_pos mine]
    obtain ⟨again, there, rfl, conversation⟩ := consistent.subscribers h _ place mine
    obtain rfl : before = again := Option.some.inj (held.symm.trans there)
    obtain ⟨hub, id, closed, missed⟩ := before.push_same e
    refine ⟨LivePresenceQueue.push_waiting waiting, fun going => ?_, fun going => ?_⟩
    · rw [closed] at going
      rw [hub, id, subscribers_processedBy]
      exact subscribed going
    · rw [closed] at going
      rw [hub, id, missed, LivePresenceQueue.push_gets waiting going, processed_self, List.filter_append, ← received going]
      simp [conversation]
  · rw [if_neg mine]
    refine ⟨waiting, fun going => ?_, fun going => ?_⟩
    · rw [subscribers_processedBy]
      exact subscribed going
    · rw [received going]
      by_cases here : before.hub = h
      · have other : e.conversationId ≠ before.conversationId := by
          intro same
          rw [same, ← here] at mine
          exact mine (subscribed going)
        rw [here, processed_self, List.filter_append, List.filter_singleton]
        simp [other]
      · rw [processed_other here]

theorem remembers_processedBy (consistent : w.Consistent) (g : H) (id key : JsString) :
    (w.processedBy h e).Remembers g id key := by
  have before := consistent.records g id key
  by_cases mine : g = h ∧ e.conversationId = id ∧ e.key = key
  · have session := session_processedBy (w := w) (h := h) (e := e) g id key
    rw [if_pos mine] at session
    obtain ⟨rfl, rfl, rfl⟩ := mine
    have bucket : (((w.processedBy g e).hubs g).records e.conversationId).get e.key =
        if e.kind = .upsert then some e.record else none := by
      rw [hub_self, LivePresenceHub.process]
      simp only [Function.update_self]
      exact LivePresenceHub.get_applied
    constructor
    · intro r held
      rw [bucket] at held
      split at held
      · rename_i upsert
        exact ⟨e, by rw [session, List.getLast?_concat], upsert, Option.some.inj held⟩
      · cases held
    · intro f last upsert
      rw [session, List.getLast?_concat, Option.some.injEq] at last
      subst last
      exact .inl (by rw [bucket, if_pos upsert])
  · have session := session_processedBy (w := w) (h := h) (e := e) g id key
    rw [if_neg mine] at session
    have bucket : (((w.processedBy h e).hubs g).records id).get key = ((w.hubs g).records id).get key := by
      by_cases here : g = h
      · subst here
        rw [hub_self, LivePresenceHub.process]
        by_cases conversation : id = e.conversationId
        · subst conversation
          simp only [Function.update_self]
          exact LivePresenceHub.get_applied_other fun same => mine ⟨rfl, rfl, same.symm⟩
        · simp only [Function.update_of_ne conversation]
      · rw [hub_other here]
    constructor
    · rw [bucket, session]
      exact before.last
    · rw [bucket, session]
      exact before.held

theorem ordered_processedBy (consistent : w.Consistent) (new : e.place ∉ (w.processed h).map (·.place))
    (order : w.InOrder h e.place e.conversationId e.key e.kind e.record.updatedAt.milliseconds)
    (published : (channel, e) ∈ w.published) (g : H) {a b : LivePresenceEnvelope}
    (memberA : a ∈ (w.processedBy h e).processed g) (memberB : b ∈ (w.processedBy h e).processed g)
    (before : (w.processedBy h e).Before g a.place b.place) (conversation : a.conversationId = b.conversationId)
    (key : a.key = b.key) :
    (∀ f, ¬(w.processedBy h e).Before f b.place a.place) ∧
      (a.kind = .upsert → b.kind = .upsert → a.record.updatedAt.milliseconds ≤ b.record.updatedAt.milliseconds) := by
  have eq {g f : H} {x y : LivePresenceEnvelope} (memberX : x ∈ (w.processedBy h e).processed g)
      (memberY : y ∈ (w.processedBy h e).processed f) (same : x.place = y.place) : x = y := by
    have listed {g : H} {x : LivePresenceEnvelope} (member : x ∈ (w.processedBy h e).processed g) :
        ∃ channel, (channel, x) ∈ w.published := by
      rcases mem_processedBy member with old | ⟨-, rfl⟩
      · exact consistent.processed g x old
      · exact ⟨channel, published⟩
    obtain ⟨_, listedX⟩ := listed memberX
    obtain ⟨_, listedY⟩ := listed memberY
    exact consistent.eq_of_place listedX listedY same
  have last : e ∈ (w.processedBy h e).processed h := by
    rw [processed_self]
    exact List.mem_append_right _ (List.mem_singleton_self e)
  rcases before_processedBy before with old | ⟨rfl, lastB, f, member, place⟩
  · -- A pair that was there before: the envelope cannot come between at another hub.
    have oldA : a ∈ w.processed g := by
      rcases mem_processedBy memberA with inside | ⟨rfl, rfl⟩
      · exact inside
      · exact (new (old.subset (by simp))).elim
    have oldB : b ∈ w.processed g := by
      rcases mem_processedBy memberB with inside | ⟨rfl, rfl⟩
      · exact inside
      · exact (new (old.subset (by simp))).elim
    obtain ⟨never, times⟩ := consistent.ordered g a oldA b oldB old conversation key
    refine ⟨fun f later => ?_, times⟩
    rcases before_processedBy later with again | ⟨rfl, lastA, c, member, place⟩
    · exact never f again
    · obtain rfl := eq memberA last lastA
      obtain rfl := eq (processed_subset f member) memberB place
      exact (order c member conversation.symm key.symm).1 g old
  · obtain rfl := eq memberB last lastB
    obtain rfl := eq (processed_subset g member) memberA place
    obtain ⟨never, times⟩ := order f member conversation key
    refine ⟨fun c later => ?_, times⟩
    rcases before_processedBy later with again | ⟨rfl, lastA, -, -, -⟩
    · exact never c again
    · rw [lastA] at place
      exact new (List.mem_map.mpr ⟨f, member, lastA⟩)

theorem consistent_processedBy (consistent : w.Consistent) (published : (channel, e) ∈ w.published)
    (new : e.place ∉ (w.processed h).map (·.place))
    (order : w.InOrder h e.place e.conversationId e.key e.kind e.record.updatedAt.milliseconds) :
    (w.processedBy h e).Consistent where
  places := consistent.places
  identities := consistent.identities
  processed g a member := by
    rcases mem_processedBy member with old | ⟨-, rfl⟩
    · exact consistent.processed g a old
    · exact ⟨channel, published⟩
  distinct g := by
    by_cases here : g = h
    · subst here
      rw [processed_self, List.map_append, List.map_singleton]
      exact List.nodup_append.mpr ⟨consistent.distinct g, by simp, by simpa using new⟩
    · rw [processed_other here]
      exact consistent.distinct g
  seen g deliveryId member := by
    by_cases here : g = h
    · subst here
      rw [hub_self] at member
      rw [processed_self]
      rcases LivePresenceHub.mem_remember member with old | rfl
      · obtain ⟨a, inside, same⟩ := consistent.seen g _ old
        exact ⟨a, List.mem_append_left _ inside, same⟩
      · exact ⟨e, by simp, rfl⟩
    · rw [hub_other here] at member
      rw [processed_other here]
      exact consistent.seen g _ member
  offered g place member := by
    by_cases here : g = h
    · subst here
      rw [offered_self, List.mem_append, List.mem_singleton] at member
      rw [processed_self]
      rcases member with old | rfl
      · obtain ⟨a, inside, same⟩ := consistent.offered g place old
        exact ⟨a, List.mem_append_left _ inside, same⟩
      · exact ⟨e, by simp, rfl⟩
    · rw [offered_other here] at member
      rw [processed_other here]
      exact consistent.offered g place member
  queues _ _ := queue_processedBy consistent
  subscribers g id place member := by
    rw [subscribers_processedBy] at member
    obtain ⟨q, held, hub, conversation⟩ := consistent.subscribers g id place member
    refine ⟨_, by rw [getElem?_processedBy, held]; rfl, ?_⟩
    split
    · exact ⟨(q.push_same e).1.trans hub, (q.push_same e).2.1.trans conversation⟩
    · exact ⟨hub, conversation⟩
  records := remembers_processedBy consistent
  ordered g _ memberA _ memberB := ordered_processedBy consistent new order published g memberA memberB

theorem consistent_again (consistent : w.Consistent) {place : Nat} (known : place ∈ (w.processed h).map (·.place)) :
    Consistent { w with offered := Function.update w.offered h (w.offered h ++ [place]) } where
  places := consistent.places
  identities := consistent.identities
  processed := consistent.processed
  distinct := consistent.distinct
  seen := consistent.seen
  offered g other member := by
    by_cases here : g = h
    · subst here
      simp only [Function.update_self, List.mem_append, List.mem_singleton] at member
      rcases member with old | rfl
      · exact consistent.offered g other old
      · exact List.mem_map.mp known
    · simp only [Function.update_of_ne here] at member
      exact consistent.offered g other member
  queues place q held := (consistent.queues place q held).frame rfl rfl
  subscribers := consistent.subscribers
  records g id key := (consistent.records g id key).frame rfl rfl rfl
  ordered := consistent.ordered

theorem consistent_emit (consistent : w.Consistent) (published : (channel, e) ∈ w.published)
    (again : e.place ∈ (w.processed h).map (·.place) → e.deliveryId ∈ (w.hubs h).seen)
    (first : e.place ∉ (w.processed h).map (·.place) →
      w.InOrder h e.place e.conversationId e.key e.kind e.record.updatedAt.milliseconds) : (w.emit h e).Consistent := by
  rw [emit_eq]
  by_cases known : e.place ∈ (w.processed h).map (·.place)
  · rw [if_pos (again known)]
    exact consistent_again consistent known
  · rw [if_neg (consistent.not_seen published known)]
    exact consistent_processedBy consistent published known (first known)

/-! ### The other steps -/

theorem consistent_publish (consistent : w.Consistent) {hub : LivePresenceHub}
    (same : hub.records = (w.hubs h).records ∧ hub.seen = (w.hubs h).seen ∧ hub.subscribers = (w.hubs h).subscribers)
    (place : e.place = w.published.length) (fresh : ∀ published ∈ w.published, published.2.deliveryId ≠ e.deliveryId) :
    Consistent { w.setHub h hub with published := w.published ++ [(channel, e)] } := by
  have hubs (g : H) : ((w.setHub h hub).hubs g).records = (w.hubs g).records ∧
      ((w.setHub h hub).hubs g).seen = (w.hubs g).seen ∧ ((w.setHub h hub).hubs g).subscribers = (w.hubs g).subscribers := by
    by_cases here : g = h
    · subst here
      rw [setHub]
      simp only [Function.update_self]
      exact same
    · rw [setHub]
      simp only [Function.update_of_ne here, and_self]
  constructor
  case places =>
    intro i c f found
    rcases getElem?_concat_cases found with old | ⟨rfl, new⟩
    · exact consistent.places i c f old
    · obtain ⟨rfl, rfl⟩ := Prod.mk.inj new
      exact place
  case identities =>
    rw [List.map_append, List.map_singleton]
    refine List.nodup_append.mpr ⟨consistent.identities, by simp, fun a member b last same => ?_⟩
    obtain ⟨published, listed, rfl⟩ := List.mem_map.mp member
    exact fresh published listed (same.trans (List.mem_singleton.mp last))
  case processed =>
    intro g a member
    obtain ⟨c, listed⟩ := consistent.processed g a member
    exact ⟨c, List.mem_append_left _ listed⟩
  case distinct => exact consistent.distinct
  case seen =>
    intro g deliveryId member
    exact consistent.seen g deliveryId ((hubs g).2.1 ▸ member)
  case offered => exact consistent.offered
  case queues => exact fun place q held => (consistent.queues place q held).frame rfl (hubs _).2.2
  case subscribers =>
    intro g id place member
    exact consistent.subscribers g id place ((hubs g).2.2 ▸ member)
  case records => exact fun g id key => (consistent.records g id key).frame rfl (hubs g).1 rfl
  case ordered => exact consistent.ordered

theorem consistent_addQueue (consistent : w.Consistent) (id : JsString) : (w.addQueue h id).Consistent := by
  have hubs (g : H) : ((w.addQueue h id).hubs g).records = (w.hubs g).records ∧
      ((w.addQueue h id).hubs g).seen = (w.hubs g).seen ∧ ∀ other place, place ∈ (w.hubs g).subscribers other →
        place ∈ ((w.addQueue h id).hubs g).subscribers other := by
    rw [addQueue, setHub]
    by_cases here : g = h
    · subst here
      simp only [Function.update_self, true_and]
      intro other place member
      by_cases same : other = id
      · subst same
        rw [Function.update_self]
        exact List.mem_append_left _ member
      · rwa [Function.update_of_ne same]
    · simp only [Function.update_of_ne here, true_and]
      exact fun _ _ member => member
  constructor
  case places => exact consistent.places
  case identities => exact consistent.identities
  case processed => exact consistent.processed
  case distinct => exact consistent.distinct
  case seen =>
    intro g deliveryId member
    exact consistent.seen g deliveryId ((hubs g).2.1 ▸ member)
  case offered => exact consistent.offered
  case queues =>
    intro place q held
    rcases getElem?_concat_cases held with old | ⟨rfl, rfl⟩
    · obtain ⟨waiting, subscribed, received⟩ := consistent.queues place q old
      exact ⟨waiting, fun going => (hubs q.hub).2.2 _ _ (subscribed going), received⟩
    · refine ⟨.inl rfl, fun _ => ?_, fun _ => by simp; rfl⟩
      rw [addQueue, setHub]
      simp
  case subscribers =>
    intro g other place member
    have old (member : place ∈ (w.hubs g).subscribers other) : ∃ q, (w.addQueue h id).queues[place]? = some q ∧
        q.hub = g ∧ q.conversationId = other := by
      obtain ⟨q, held, hub, conversation⟩ := consistent.subscribers g other place member
      have small : place < w.queues.length := (List.getElem?_eq_some_iff.mp held).1
      exact ⟨q, by rw [addQueue, List.getElem?_append_left small, held], hub, conversation⟩
    rw [addQueue, setHub] at member
    by_cases here : g = h
    · subst here
      simp only [Function.update_self] at member
      by_cases same : other = id
      · subst same
        rw [Function.update_self] at member
        rcases List.mem_append.mp member with before | last
        · exact old before
        · obtain rfl := List.mem_singleton.mp last
          exact ⟨_, List.getElem?_concat_length, rfl, rfl⟩
      · rw [Function.update_of_ne same] at member
        exact old member
    · simp only [Function.update_of_ne here] at member
      exact old member
  case records => exact fun g other key => (consistent.records g other key).frame rfl (hubs g).1 rfl
  case ordered => exact consistent.ordered

omit [DecidableEq H] in
theorem consistent_next (consistent : w.Consistent) (place : Nat) :
    Consistent { w with queues := w.queues.modify place LivePresenceQueue.next } := by
  have queue (other : Nat) : (w.queues.modify place LivePresenceQueue.next)[other]? =
      w.queues[other]?.map fun q => if place = other then q.next else q := by
    rw [List.getElem?_modify]
    by_cases here : place = other <;> simp [here]
  constructor
  case places => exact consistent.places
  case identities => exact consistent.identities
  case processed => exact consistent.processed
  case distinct => exact consistent.distinct
  case seen => exact consistent.seen
  case offered => exact consistent.offered
  case queues =>
    intro other q held
    rw [queue, Option.map_eq_some_iff] at held
    obtain ⟨before, there, rfl⟩ := held
    have old := consistent.queues other before there
    split
    · obtain ⟨hub, conversation, closed, missed, gets⟩ := before.next_same
      refine ⟨LivePresenceQueue.next_waiting old.waiting, ?_, ?_⟩
      · rw [closed, hub, conversation]
        exact old.subscribed
      · rw [closed, hub, conversation, missed, gets]
        exact old.received
    · exact old.frame rfl rfl
  case subscribers =>
    intro g id other member
    obtain ⟨q, held, hub, conversation⟩ := consistent.subscribers g id other member
    refine ⟨_, by rw [queue, held]; rfl, ?_⟩
    split
    · exact ⟨q.next_same.1.trans hub, q.next_same.2.1.trans conversation⟩
    · exact ⟨hub, conversation⟩
  case records => exact fun g id key => (consistent.records g id key).frame rfl rfl rfl
  case ordered => exact consistent.ordered

theorem consistent_closeQueue (consistent : w.Consistent) (place : Nat) : (w.closeQueue place).Consistent := by
  unfold closeQueue
  split
  · rename_i q found
    -- The others stay in their sets.
    have hubs (g : H) : ((w.setHub q.hub ((w.hubs q.hub).without q.conversationId place)).hubs g).records =
          (w.hubs g).records ∧
        ((w.setHub q.hub ((w.hubs q.hub).without q.conversationId place)).hubs g).seen = (w.hubs g).seen ∧
        ∀ id other, (other ∈ ((w.setHub q.hub ((w.hubs q.hub).without q.conversationId place)).hubs g).subscribers id →
            other ∈ (w.hubs g).subscribers id) ∧
          (other ∈ (w.hubs g).subscribers id → other ≠ place →
            other ∈ ((w.setHub q.hub ((w.hubs q.hub).without q.conversationId place)).hubs g).subscribers id) := by
      rw [setHub]
      by_cases here : g = q.hub
      · subst here
        simp only [Function.update_self]
        refine ⟨rfl, rfl, fun id other => ⟨fun member => (LivePresenceHub.mem_without.mp member).1, fun member stays => ?_⟩⟩
        exact LivePresenceHub.mem_without.mpr ⟨member, fun _ => stays⟩
      · simp only [Function.update_of_ne here, true_and]
        exact fun id other => ⟨fun member => member, fun member _ => member⟩
    obtain ⟨closedHub, closedId, closed⟩ := q.close_same
    constructor
    case places => exact consistent.places
    case identities => exact consistent.identities
    case processed => exact consistent.processed
    case distinct => exact consistent.distinct
    case seen =>
      intro g deliveryId member
      exact consistent.seen g deliveryId ((hubs g).2.1 ▸ member)
    case offered => exact consistent.offered
    case queues =>
      intro other r held
      dsimp only at held
      by_cases here : other = place
      · subst here
        rw [List.getElem?_set_self (List.getElem?_eq_some_iff.mp found).1] at held
        obtain rfl := Option.some.inj held
        have going (open' : q.close.closed = false) : False := by
          rw [closed] at open'
          cases open'
        exact ⟨LivePresenceQueue.close_waiting (consistent.queues other q found).waiting, fun open' => (going open').elim,
          fun open' => (going open').elim⟩
      · rw [List.getElem?_set_ne (Ne.symm here)] at held
        obtain ⟨waiting, subscribed, received⟩ := consistent.queues other r held
        exact ⟨waiting, fun going => ((hubs r.hub).2.2 _ _).2 (subscribed going) here, received⟩
    case subscribers =>
      intro g id other member
      obtain ⟨r, held, hub, conversation⟩ := consistent.subscribers g id other (((hubs g).2.2 _ _).1 member)
      by_cases here : other = place
      · subst here
        obtain rfl := Option.some.inj (found.symm.trans held)
        exact ⟨_, List.getElem?_set_self (List.getElem?_eq_some_iff.mp found).1, closedHub.trans hub,
          closedId.trans conversation⟩
      · exact ⟨r, by rw [List.getElem?_set_ne (Ne.symm here), held], hub, conversation⟩
    case records => exact fun g id key => (consistent.records g id key).frame rfl (hubs g).1 rfl
    case ordered => exact consistent.ordered
  · exact consistent

theorem consistent_snapshot (consistent : w.Consistent) (id : JsString) (now : ℚ) :
    Consistent { w.setHub h ((w.hubs h).prune id now) with
      readings := Function.update w.readings h (w.readings h ++ [now]) } := by
  have hubs (g : H) : ((w.setHub h ((w.hubs h).prune id now)).hubs g).seen = (w.hubs g).seen ∧
      ((w.setHub h ((w.hubs h).prune id now)).hubs g).subscribers = (w.hubs g).subscribers := by
    rw [setHub]
    by_cases here : g = h
    · subst here
      simp only [Function.update_self]
      exact ⟨rfl, rfl⟩
    · simp only [Function.update_of_ne here, and_self]
  constructor
  case places => exact consistent.places
  case identities => exact consistent.identities
  case processed => exact consistent.processed
  case distinct => exact consistent.distinct
  case seen =>
    intro g deliveryId member
    exact consistent.seen g deliveryId ((hubs g).1 ▸ member)
  case offered => exact consistent.offered
  case queues => exact fun place q held => (consistent.queues place q held).frame rfl (hubs _).2
  case subscribers =>
    intro g other place member
    exact consistent.subscribers g other place ((hubs g).2 ▸ member)
  case records =>
    intro g other key
    have before := consistent.records g other key
    by_cases here : g = h
    · subst here
      have hub : (w.setHub g ((w.hubs g).prune id now)).hubs g = (w.hubs g).prune id now := Function.update_self ..
      by_cases conversation : other = id
      · subst conversation
        constructor
        · intro r held
          dsimp only at held
          rw [hub] at held
          exact before.last r (LivePresenceHub.get_prune.mp held).1
        · intro e last upsert
          dsimp only
          rw [hub, Function.update_self]
          rcases before.held e last upsert with held | ⟨time, read, spent⟩
          · by_cases lives : now < e.record.expiresAt.milliseconds
            · exact .inl (LivePresenceHub.get_prune.mpr ⟨held, lives⟩)
            · exact .inr ⟨now, by simp, not_lt.mp lives⟩
          · exact .inr ⟨time, List.mem_append_left _ read, spent⟩
      · have records : ((w.setHub g ((w.hubs g).prune id now)).hubs g).records other = (w.hubs g).records other := by
          rw [hub, LivePresenceHub.records_prune_other conversation]
        constructor
        · intro r held
          exact before.last r (records ▸ held)
        · intro e last upsert
          dsimp only
          rw [records, Function.update_self]
          rcases before.held e last upsert with held | ⟨time, read, spent⟩
          · exact .inl held
          · exact .inr ⟨time, List.mem_append_left _ read, spent⟩
    · refine before.frame rfl ?_ (Function.update_of_ne here ..)
      exact congrArg LivePresenceHub.records (Function.update_of_ne here ..)
  case ordered => exact consistent.ordered

/-- Every action keeps what the hubs have offered, seen and queued together. -/
theorem consistent_step [RadixText] (consistent : w.Consistent) {action : PresenceAction H} (meets : w.Meets action) :
    (w.step action).Consistent := by
  cases action with
  | publish h conversationId kind input now =>
    simp only [step]
    split
    · rename_i id record checked normalized
      obtain ⟨fresh, order⟩ := meets
      obtain rfl := requireConversationId_eq checked
      have new : w.published.length ∉ (w.processed h).map (·.place) := by
        intro member
        obtain ⟨e, inside, place⟩ := List.mem_map.mp member
        obtain ⟨channel, listed⟩ := consistent.processed h e inside
        obtain ⟨i, found⟩ := List.getElem?_of_mem listed
        have small := (List.getElem?_eq_some_iff.mp found).1
        rw [← consistent.places i channel e found, place] at small
        exact Nat.lt_irrefl _ small
      rw [announce]
      refine consistent_emit (consistent_publish (h := h) consistent ⟨rfl, rfl, rfl⟩ rfl fresh)
        (List.mem_append_right _ (List.mem_singleton_self _)) (fun known => (new known).elim) fun _ => ?_
      exact order record (by rw [normalized]; rfl)
    · exact consistent
  | deliver h place =>
    simp only [step]
    split
    · rename_i channel e found
      split
      · have holds := meets _ found
        obtain rfl := consistent.places place channel e found
        refine consistent_emit consistent (List.mem_of_getElem? found) (fun known => ?_) (fun unknown => ?_)
        · rwa [if_pos known] at holds
        · rwa [if_neg unknown] at holds
      · exact consistent
    · exact consistent
  | subscribe h conversationId =>
    simp only [step]
    split
    · exact consistent_addQueue consistent _
    · exact consistent
  | next place => exact consistent_next consistent place
  | close place => exact consistent_closeQueue consistent place
  | snapshot h conversationId now =>
    simp only [step]
    split
    · exact consistent_snapshot consistent _ now
    · exact consistent

omit [DecidableEq H] in
theorem consistent_start (prefixes : H → JsString) : (start prefixes).Consistent where
  places i channel e found := by simp [start] at found
  identities := List.nodup_nil
  processed h e member := by cases member
  distinct h := List.nodup_nil
  seen h deliveryId member := by cases member
  offered h place member := by cases member
  queues place q found := by simp [start] at found
  subscribers h id place member := by cases member
  records h id key := by
    constructor
    · intro r held
      cases held
    · intro e last
      cases last
  ordered h a member := by cases member

theorem consistent_run [RadixText] {actions : List (PresenceAction H)} (consistent : w.Consistent)
    (meets : AllMeet w actions) : (w.run actions).Consistent := by
  induction actions generalizing w with
  | nil => exact consistent
  | cons action rest ih => exact ih (consistent_step consistent meets.1) meets.2

theorem hubs_converge [RadixText] [Collation] [LawfulCollation] (prefixes : H → JsString) (actions : List (PresenceAction H))
    (meets : AllMeet (start prefixes) actions) : ((start prefixes).run actions).Converges :=
  converges_of_consistent (consistent_run (consistent_start prefixes) meets)

/-! ### Samples -/

section
variable [Fintype H]

instance (w : PresenceWorld H) (h : H) (place : Nat) (id key : JsString) (kind : LivePresenceKind) (updated : Int) :
    Decidable (w.InOrder h place id key kind updated) :=
  inferInstanceAs (Decidable (∀ e ∈ w.processed h, e.conversationId = id → e.key = key →
    (∀ g, ¬[place, e.place].Sublist ((w.processed g).map (·.place))) ∧
      (e.kind = .upsert → kind = .upsert → e.record.updatedAt.milliseconds ≤ updated)))

instance [RadixText] (w : PresenceWorld H) : (action : PresenceAction H) → Decidable (w.Meets action)
  | .publish h conversationId kind input now =>
    inferInstanceAs (Decidable
      ((∀ published ∈ w.published, published.2.deliveryId ≠ deliveryId now ((w.hubs h).deliveryCounter + 1)) ∧
        ∀ record ∈ (normalizePresenceRecord input).toOption,
          w.InOrder h w.published.length conversationId (getPresenceRecordKey record) kind record.updatedAt.milliseconds))
  | .deliver h place =>
    inferInstanceAs (Decidable (∀ published ∈ w.published[place]?,
      if place ∈ (w.processed h).map (·.place) then published.2.deliveryId ∈ (w.hubs h).seen
      else w.InOrder h place published.2.conversationId published.2.key published.2.kind
        published.2.record.updatedAt.milliseconds))
  | .subscribe _ _ => .isTrue trivial
  | .next _ => .isTrue trivial
  | .close _ => .isTrue trivial
  | .snapshot _ _ _ => .isTrue trivial

instance decideAllMeet [RadixText] : (w : PresenceWorld H) → (actions : List (PresenceAction H)) → Decidable (AllMeet w actions)
  | _, [] => .isTrue trivial
  | w, action :: rest =>
    have := decideAllMeet (w.step action) rest
    inferInstanceAs (Decidable (w.Meets action ∧ AllMeet (w.step action) rest))

end

def radix36Units : Nat → Nat → List UInt16
  | 0, _ => []
  | fuel + 1, n =>
    let digit := n % 36
    let unit : UInt16 := if digit < 10 then (48 + digit).toUInt16 else (87 + digit).toUInt16
    (if n < 36 then [] else radix36Units fuel (n / 36)) ++ [unit]

@[reducible] def wholeRadix36 : RadixText := ⟨fun x => ⟨radix36Units (x.num.toNat + 1) x.num.toNat⟩⟩

@[reducible] def byCodeUnits : Collation := ⟨lexicalCompare⟩

theorem lexicalCompare_le {a b : JsString} : lexicalCompare a b ≤ 0 ↔ a ≤ b := by
  unfold lexicalCompare
  split
  · rename_i less
    simp [less.le]
  · rename_i notLess
    split
    · rename_i more
      simp [more]
    · rename_i notMore
      simp [not_lt.mp notMore]

theorem byCodeUnits_lawful : @LawfulCollation byCodeUnits := by
  let _ := byCodeUnits
  constructor
  · intro a b
    exact (le_total a b).imp lexicalCompare_le.mpr lexicalCompare_le.mpr
  · intro a b c ab bc
    exact lexicalCompare_le.mpr ((lexicalCompare_le.mp ab).trans (lexicalCompare_le.mp bc))
  · intro r s rs sr
    exact le_antisymm (lexicalCompare_le.mp rs) (lexicalCompare_le.mp sr)

def samplePrefix : Bool → JsString := fun _ => js "p:"

/-- Each hub publishes a record, and the second one reads its clock at `now`. -/
def sampleActions (now : ℚ) : List (PresenceAction Bool) :=
  [.subscribe true (js "c"), .subscribe false (js "c"), .publish true (js "c") .upsert sampleTyping.toJson 1,
    .publish false (js "c") .upsert sampleOther.toJson now, .deliver false 0, .deliver true 1, .deliver true 0,
    .deliver false 1, .snapshot true (js "c") 5]

theorem hubs_converge_sample : ∃ (_ : RadixText) (_ : Collation),
    ((start samplePrefix).run (sampleActions 2)).Converges := by
  let _ := wholeRadix36
  let _ := byCodeUnits
  have _ := byCodeUnits_lawful
  exact ⟨wholeRadix36, byCodeUnits, hubs_converge samplePrefix (sampleActions 2) (by decide +kernel)⟩

omit [DecidableEq H] in
theorem allOffered_of_all (all : ∀ h, ∀ published ∈ w.published, published.2.place ∈ w.offered h) (id : JsString) :
    ∀ h, w.AllOffered h id := fun h _ _ published _ => all h _ published

omit [DecidableEq H] in
theorem not_converges_of_lost [Collation] {place : Nat} (offered : place ∈ w.offered h)
    (never : ∀ e ∈ w.processed h, e.place ≠ place) : ¬w.Converges := by
  intro converges
  obtain ⟨e, processed, same⟩ := converges.unsuppressed h place offered
  exact never e processed same

/-- Two hubs that publish for the first time in one millisecond give out one identity: each takes the other's envelope for
its own and never shows it. -/
theorem hubs_share_an_identity : ∃ (_ : RadixText) (_ : Collation),
    (∀ h, ((start samplePrefix).run (sampleActions 1)).AllOffered h (js "c")) ∧
      ¬((start samplePrefix).run (sampleActions 1)).Converges := by
  refine ⟨wholeRadix36, byCodeUnits, ?_⟩
  generalize reached : @run Bool _ wholeRadix36 (start samplePrefix) (sampleActions 1) = w
  have facts : (∀ h, ∀ published ∈ w.published, published.2.place ∈ w.offered h) ∧ 0 ∈ w.offered false ∧
      ∀ e ∈ w.processed false, e.place ≠ 0 := by
    rw [← reached]
    decide +kernel
  let _ := byCodeUnits
  exact ⟨allOffered_of_all facts.1 _, not_converges_of_lost facts.2.1 facts.2.2⟩

end PresenceWorld

end Handrail.Presence

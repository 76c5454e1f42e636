import Handrail.Conversation.Projection
import Handrail.Conversation.Restore

/-!
# Deliveries of a log

Events may be delivered to a projection in any order, any number of times and with events of other conversations between
them. What is taken is the longest beginning of the log that is delivered in order.
-/

namespace Handrail.Conversation
open Js

variable {conversationId : Identifier} {log deliveries : List ConversationEvent} {event : ConversationEvent} {s : ConversationState}

def ConversationState.withoutError (s : ConversationState) : ConversationState := { s with replayError := none }

structure Delivered (log deliveries : List ConversationEvent) (count : Nat) : Prop where
  within : count ≤ log.length
  arrived : (log.take count).Sublist deliveries
  most : ∀ n ≤ log.length, (log.take n).Sublist deliveries → n ≤ count

theorem sublist_concat {α : Type} {l m : List α} {a b : α} (sub : (l ++ [a]).Sublist (m ++ [b])) :
    l.Sublist m ∧ (a ≠ b → (l ++ [a]).Sublist m) := by
  have reversed := sub.reverse
  simp only [List.reverse_append, List.reverse_singleton, List.singleton_append] at reversed
  constructor
  · exact List.reverse_sublist.mp reversed.of_cons_cons
  · intro apart
    have later := (List.sublist_cons_iff.mp reversed).resolve_right fun ⟨_, same, _⟩ => apart (List.cons.inj same).1
    refine List.reverse_sublist.mp ?_
    simpa using later

theorem Delivered.nil : Delivered log [] 0 where
  within := Nat.zero_le _
  arrived := List.nil_sublist _
  most := by
    intro n inside sub
    have none_ := congrArg List.length (List.sublist_nil.mp sub)
    rw [List.length_take, List.length_nil] at none_
    omega

theorem Delivered.next {count : Nat} (delivered : Delivered log deliveries count) (found : log[count]? = some event) :
    Delivered log (deliveries ++ [event]) (count + 1) := by
  obtain ⟨inside, rfl⟩ := List.getElem?_eq_some_iff.mp found
  refine ⟨inside, ?_, fun n within sub => ?_⟩
  · rw [List.take_succ_eq_append_getElem inside]
    exact delivered.arrived.append (List.Sublist.refl _)
  · cases n with
    | zero => exact Nat.zero_le _
    | succ n =>
      rw [List.take_succ_eq_append_getElem within] at sub
      exact Nat.succ_le_succ (delivered.most n (Nat.le_of_succ_le within) (sublist_concat sub).1)

theorem Delivered.other {count : Nat} (delivered : Delivered log deliveries count) (other : log[count]? ≠ some event) :
    Delivered log (deliveries ++ [event]) count := by
  refine ⟨delivered.within, delivered.arrived.trans (List.sublist_append_left _ _), fun n within sub => ?_⟩
  cases n with
  | zero => exact Nat.zero_le _
  | succ n =>
    rw [List.take_succ_eq_append_getElem within] at sub
    obtain ⟨before, all⟩ := sublist_concat sub
    have bounded := delivered.most n (Nat.le_of_succ_le within) before
    by_cases last : n = count
    · subst last
      have apart : log[n] ≠ event := fun same => other (List.getElem?_eq_some_iff.mpr ⟨within, same⟩)
      have whole := all apart
      rw [← List.take_succ_eq_append_getElem within] at whole
      exact delivered.most _ within whole
    · omega

/-! ### The projection of the deliveries -/

theorem Contiguous.revision_at (contiguous : Contiguous conversationId log) {n : Nat} (found : log[n]? = some event) :
    event.revision = n + 1 := by
  have revisions := congrArg (fun l => l[n]?) contiguous.revisions
  obtain ⟨inside, -⟩ := List.getElem?_eq_some_iff.mp found
  simp only [List.getElem?_map, found, Option.map_some, List.getElem?_range' inside, Option.some.injEq] at revisions
  omega

/-- A state that has taken the beginning of a log takes the event after it, and no other one of the log. -/
theorem continues_iff (contiguous : Contiguous conversationId log) {count : Nat} (within : count ≤ log.length)
    (taken : s.withoutError = foldEvents (createInitialConversationState (some conversationId)) (log.take count))
    (genuine : event ∈ log ∨ event.conversationId ≠ conversationId) : Continues s event ↔ log[count]? = some event := by
  have envelope := (congrArg ConversationState.envelope taken).trans (foldEvents_envelope (contiguous.take count))
  constructor
  · intro continues
    have known : s.conversationId = some conversationId := congrArg Envelope.conversationId envelope
    have own : event.conversationId = conversationId := (continues.conversation conversationId known).symm
    obtain ⟨n, found⟩ := List.mem_iff_getElem?.mp (genuine.resolve_right fun apart => apart own)
    have reached : s.revision = (log.take count).getLast?.map ConversationEvent.revision := congrArg Envelope.revision envelope
    have next := continues.revision
    rw [ConversationState.expectedRevision, reached, (contiguous.take count).lastRevision, contiguous.revision_at found,
      List.length_take, Nat.min_eq_left within] at next
    rwa [← Nat.succ.inj next]
  · intro found
    obtain ⟨inside, rfl⟩ := List.getElem?_eq_some_iff.mp found
    have longer := contiguous.take (count + 1)
    rw [List.take_succ_eq_append_getElem inside] at longer
    obtain ⟨fresh, conversation, revision⟩ := continues_of_envelope longer envelope
    exact ⟨fresh, conversation, revision⟩

theorem reduce_withoutError (continues : Continues s event) :
    (reduceConversationEvent s event).withoutError = reduceConversationEvent s.withoutError event := by
  have same : Continues s.withoutError event := ⟨continues.fresh, continues.conversation, continues.revision⟩
  have clean : (reduceConversationEvent s event).replayError = none := congrArg Envelope.replayError (reduce_envelope continues)
  calc (reduceConversationEvent s event).withoutError
      = reduceConversationEvent s event := by rw [ConversationState.withoutError, ← clean]
    _ = reduceConversationEvent s.withoutError event := by
        rw [reduce_of_continues continues, reduce_of_continues same]
        rfl

/-- The projection of any deliveries of a log is that of the longest beginning of the log that is delivered in order. -/
theorem deliveries_projected (contiguous : Contiguous conversationId log)
    (genuine : ∀ event ∈ deliveries, event ∈ log ∨ event.conversationId ≠ conversationId) :
    ∃ count, Delivered log deliveries count ∧
      (foldEvents (createInitialConversationState (some conversationId)) deliveries).withoutError =
        foldEvents (createInitialConversationState (some conversationId)) (log.take count) := by
  induction deliveries using List.reverseRecOn with
  | nil => exact ⟨0, .nil, rfl⟩
  | append_singleton deliveries event ih =>
    rw [List.forall_mem_append] at genuine
    obtain ⟨count, delivered, taken⟩ := ih genuine.1
    have next := continues_iff contiguous delivered.within taken (genuine.2 event (List.mem_singleton_self event))
    rw [foldEvents_append, foldEvents_cons, foldEvents_nil]
    by_cases found : log[count]? = some event
    · have continues := next.mpr found
      refine ⟨count + 1, delivered.next found, ?_⟩
      obtain ⟨inside, rfl⟩ := List.getElem?_eq_some_iff.mp found
      rw [reduce_withoutError continues, taken, List.take_succ_eq_append_getElem inside, foldEvents_append,
        foldEvents_cons, foldEvents_nil]
    · refine ⟨count, delivered.other found, ?_⟩
      rcases reduceConversationEvent_cases _ event with ⟨-, same⟩ | ⟨-, error, -, same⟩ | continues
      · rw [same, taken]
      · rw [same, ← taken]
        rfl
      · exact (found (next.mp continues)).elim

/-- Two titles that arrive backwards, and then twice in order. -/
theorem deliveries_projected_titles : ∃ log : List ConversationEvent, log.length = 2 ∧
    ∃ count, Delivered log (log.reverse ++ log ++ log) count ∧
      (foldEvents (createInitialConversationState (some sampleConversationId)) (log.reverse ++ log ++ log)).withoutError =
        foldEvents (createInitialConversationState (some sampleConversationId)) (log.take count) := by
  let _ := withoutUrls
  obtain ⟨log, -, checked⟩ := accepted_of_check [sampleTitle 1, sampleTitle 2]
    (fun log => decide (Contiguous sampleConversationId log) && log.length == 2) (by decide +kernel)
  simp only [Bool.and_eq_true, decide_eq_true_eq, beq_iff_eq] at checked
  refine ⟨log, checked.2, deliveries_projected checked.1 fun event member => .inl ?_⟩
  simpa using member

end Handrail.Conversation

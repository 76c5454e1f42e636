import Handrail.Concurrent.SharedOperations

/-!
# What sharing keeps in every run

One lemma says what a step can do. From it: an operation under way keeps its entry, an entry names an operation that is under
way or has succeeded, and a call gets the outcome of an operation with its own key and signature or that of its own signal.
-/

namespace Concurrent
open Js

variable {κ σ ι S A ρ ε : Type} {d : Discipline σ ι A ρ ε} {aborted more : List S}
  {op next : Operation κ σ S A ρ ε} {call : SharedCall κ σ S ρ ε} {s t : Shared κ σ S A ρ ε}

/-! ### One operation -/

structure Operation.Sound (d : Discipline σ ι A ρ ε) (aborted : List S) (op : Operation κ σ S A ρ ε) : Prop where
  delivered : ∀ a, op.wait = some (some a) → op.invocation = .answered a
  interrupted : op.wait = some none → op.signal ∈ aborted
  came : ∀ o, op.outcome = some o → ∃ x b, op.wait = some x ∧ o = op.outcomeOf d b x ∧ (b = true → op.signal ∈ aborted)
  noted : op.recorded = true → ∃ o, op.outcome = some o

theorem Operation.start_sound (key : κ) (request : σ) (signal : S) :
    (Operation.start key request signal : Operation κ σ S A ρ ε).Sound d aborted := by
  constructor
  · rintro a ⟨⟩
  · rintro ⟨⟩
  · rintro o ⟨⟩
  · rintro ⟨⟩

theorem Operation.Sound.mono (sound : op.Sound d aborted) (grows : ∀ signal ∈ aborted, signal ∈ more) :
    op.Sound d more where
  delivered := sound.delivered
  interrupted := fun halted => grows _ (sound.interrupted halted)
  came := by
    intro o ended
    obtain ⟨x, b, waited, same, halted⟩ := sound.came o ended
    exact ⟨x, b, waited, same, fun set => grows _ (halted set)⟩
  noted := sound.noted

theorem Operation.Sound.result {result : ρ} (sound : op.Sound d aborted) (ended : op.outcome = some (.ok result)) :
    ∃ a, op.invocation = .answered a ∧ d.read op.request a = .ok result := by
  obtain ⟨x, b, waited, same, -⟩ := sound.came _ ended
  cases x with
  | none => cases same
  | some a =>
    refine ⟨a, sound.delivered a waited, ?_⟩
    simp only [Operation.outcomeOf] at same
    split at same
    · cases same
    · cases read : d.read op.request a with
      | ok r =>
        rw [read] at same
        cases same
        rfl
      | error e =>
        rw [read] at same
        cases same

theorem Operation.Sound.abort {signal : S} (sound : op.Sound d aborted)
    (ended : op.outcome = some (.error (.aborted signal))) : signal = op.signal ∧ op.signal ∈ aborted := by
  obtain ⟨x, b, waited, same, halted⟩ := sound.came _ ended
  cases x with
  | none =>
    cases same
    exact ⟨rfl, sound.interrupted waited⟩
  | some a =>
    simp only [Operation.outcomeOf] at same
    split at same
    · rename_i discards
      cases same
      exact ⟨rfl, halted (by simp_all)⟩
    · cases read : d.read op.request a with
      | ok r =>
        rw [read] at same
        cases same
      | error e =>
        rw [read] at same
        cases same

section Steps

variable [DecidableEq S]

inductive Move (d : Discipline σ ι A ρ ε) (aborted : List S) (op : Operation κ σ S A ρ ε) : Operation κ σ S A ρ ε → Prop where
  | skip (waits : op.invocation = .waiting) (halted : d.looksBefore = true ∧ op.signal ∈ aborted) :
      Move d aborted op { op with invocation := .skipped }
  | invoke (waits : op.invocation = .waiting) (lives : ¬(d.looksBefore = true ∧ op.signal ∈ aborted)) :
      Move d aborted op { op with invocation := .running }
  | answer (a : A) (runs : op.invocation = .running) : Move d aborted op { op with invocation := .answered a }
  | deliver (a : A) (waits : op.wait = none) (answered : op.invocation = .answered a) :
      Move d aborted op { op with wait := some (some a) }
  | interrupt (waits : op.wait = none) (halted : op.signal ∈ aborted) : Move d aborted op { op with wait := some none }
  | proceed (x : Option A) (waited : op.wait = some x) (open_ : op.outcome = none) :
      Move d aborted op { op with outcome := some (op.outcomeOf d (decide (op.signal ∈ aborted)) x) }
  | note (result : ρ) (succeeds : op.outcome = some (.ok result)) : Move d aborted op { op with recorded := true }

theorem Operation.Sound.move (sound : op.Sound d aborted) (move : Move d aborted op next) : next.Sound d aborted := by
  obtain ⟨delivered, interrupted, came, noted⟩ := sound
  have unanswered {other : Invocation A} (waits : ∀ a, op.invocation ≠ .answered a) (a : A) (waited : op.wait = some (some a)) :
      other = .answered a := (waits a (delivered a waited)).elim
  cases move with
  | skip waits _ => exact ⟨unanswered (by simp [waits]), interrupted, came, noted⟩
  | invoke waits _ => exact ⟨unanswered (by simp [waits]), interrupted, came, noted⟩
  | answer _ runs => exact ⟨unanswered (by simp [runs]), interrupted, came, noted⟩
  | deliver a waits answered =>
    refine ⟨?_, by simp, ?_, noted⟩
    · rintro other same
      cases same
      exact answered
    · intro o ended
      obtain ⟨x, b, waited, -⟩ := came o ended
      rw [waits] at waited
      cases waited
  | interrupt waits halted =>
    refine ⟨by simp, fun _ => halted, ?_, noted⟩
    intro o ended
    obtain ⟨x, b, waited, -⟩ := came o ended
    rw [waits] at waited
    cases waited
  | proceed x waited _ =>
    refine ⟨delivered, interrupted, ?_, fun _ => ⟨_, rfl⟩⟩
    rintro o same
    cases same
    exact ⟨x, decide (op.signal ∈ aborted), waited, rfl, of_decide_eq_true⟩
  | note result succeeds => exact ⟨delivered, interrupted, came, fun _ => ⟨_, succeeds⟩⟩

theorem Move.same (move : Move d aborted op next) :
    next.key = op.key ∧ next.request = op.request ∧ next.signal = op.signal ∧
      ∀ o, op.outcome = some o → next.outcome = some o := by
  cases move with
  | proceed x _ unended =>
    refine ⟨rfl, rfl, rfl, fun o ended => ?_⟩
    rw [unended] at ended
    cases ended
  | _ => exact ⟨rfl, rfl, rfl, fun _ ended => ended⟩

/-! ### One step -/

namespace Shared

abbrev At (s : Shared κ σ S A ρ ε) (i : Nat) (op : Operation κ σ S A ρ ε) : Prop := s.operations[i]? = some op

variable [DecidableEq κ] {i : Nat} {event : SharedEvent κ σ S A}

inductive Change (d : Discipline σ ι A ρ ε) (s : Shared κ σ S A ρ ε) : SharedEvent κ σ S A → Shared κ σ S A ρ ε → Prop where
  | same (event : SharedEvent κ σ S A) : Change d s event s
  | refused (key : κ) (request : σ) (signal : S) (refusal : Refusal S ε)
      (why : (refusal = .aborted signal ∧ signal ∈ s.aborted) ∨ refusal = .conflict ∨ refusal = .full) :
      Change d s (.call key request signal) (s.refuse key request signal refusal)
  | joined (key : κ) (request : σ) (signal : S) (i : Nat) (op : Operation κ σ S A ρ ε) (lives : signal ∉ s.aborted)
      (named : s.table.get key = some i) (found : s.At i op)
      (agree : d.signature op.request = d.signature request) :
      Change d s (.call key request signal)
        ({ s with table := (s.table.delete key).set key i }.join key request signal i)
  | began (key : κ) (request : σ) (signal : S) (table : OrderedMap κ Nat) (lives : signal ∉ s.aborted)
      (absent : s.table.get key = none) (roomy : s.room d = some table) :
      Change d s (.call key request signal)
        ({ s with table := table.set key s.operations.length
                  operations := s.operations ++ [Operation.start key request signal] }.join key request signal
          s.operations.length)
  | moved (event : SharedEvent κ σ S A) (i : Nat) (op next : Operation κ σ S A ρ ε) (found : s.At i op)
      (move : Move d s.aborted op next) : Change d s event (s.setOperation i next)
  | forgot (event : SharedEvent κ σ S A) (i : Nat) (op : Operation κ σ S A ρ ε) (refusal : Refusal S ε)
      (found : s.At i op) (ended : op.outcome = some (.error refusal)) :
      Change d s event ({ s with table := if s.table.get op.key = some i then s.table.delete op.key else s.table }.setOperation i
        { op with recorded := true })
  | aborts (signal : S) : Change d s (.abort signal) { s with aborted := signal :: s.aborted }
  | told (event : SharedEvent κ σ S A) (j : Nat) (call : SharedCall κ σ S ρ ε) (o : Except (Refusal S ε) ρ)
      (found : s.calls[j]? = some call) (waits : call.outcome = none)
      (why : (o = .error (.aborted call.signal) ∧ call.signal ∈ s.aborted) ∨
        ∃ i op, call.operation = some i ∧ s.At i op ∧ op.outcome = some o) :
      Change d s event (s.setCall j { call with outcome := some o })

theorem operation_change {move : Operation κ σ S A ρ ε → Shared κ σ S A ρ ε}
    (each : ∀ op, s.At i op → Change d s event (move op)) : Change d s event (s.withOperation i move) := by
  unfold withOperation
  cases found : s.operations[i]? with
  | none => exact .same _
  | some op => exact each op found

theorem call_change {j : Nat} {move : SharedCall κ σ S ρ ε → Shared κ σ S A ρ ε}
    (each : ∀ call, s.calls[j]? = some call → Change d s event (move call)) : Change d s event (s.withCall j move) := by
  unfold withCall
  cases found : s.calls[j]? with
  | none => exact .same _
  | some call => exact each call found

variable [DecidableEq ι]

theorem request_change (s : Shared κ σ S A ρ ε) (key : κ) (request : σ) (signal : S) :
    Change d s (.call key request signal) (s.request d key request signal) := by
  unfold Shared.request
  by_cases halted : signal ∈ s.aborted
  · rw [if_pos halted]
    exact .refused _ _ _ _ (.inl ⟨rfl, halted⟩)
  · rw [if_neg halted]
    cases named : s.table.get key with
    | none =>
      simp only [begin]
      cases roomy : s.room d with
      | none => exact .refused _ _ _ _ (.inr (.inr rfl))
      | some table => exact .began _ _ _ _ halted named roomy
    | some i =>
      dsimp only
      cases found : s.operations[i]? with
      | none => exact .same _
      | some op =>
        dsimp only
        by_cases agree : d.signature op.request = d.signature request
        · rw [if_neg (not_not.mpr agree)]
          exact .joined _ _ _ _ _ halted named found agree
        · rw [if_pos agree]
          exact .refused _ _ _ _ (.inr (.inl rfl))

/-- Every event is one of the changes. -/
theorem step_change (s : Shared κ σ S A ρ ε) (event : SharedEvent κ σ S A) : Change d s event (s.step d event) := by
  cases event with
  | call key request signal => exact request_change s key request signal
  | abort signal => exact .aborts signal
  | invoke i =>
    refine operation_change fun op found => ?_
    obtain ⟨key, request, signal, invocation, wait, outcome, recorded⟩ := op
    cases invocation with
    | waiting =>
      refine .moved _ i _ _ found ?_
      by_cases halted : d.looksBefore = true ∧ signal ∈ s.aborted
      · simp only [halted.1, halted.2, decide_true, Bool.and_true, if_true]
        exact .skip rfl halted
      · have lives : (d.looksBefore && decide (signal ∈ s.aborted)) = false := by simpa using halted
        simp only [lives, Bool.false_eq_true, if_false]
        exact .invoke rfl halted
    | _ => exact .same _
  | answer i a =>
    refine operation_change fun op found => ?_
    obtain ⟨key, request, signal, invocation, wait, outcome, recorded⟩ := op
    cases invocation with
    | running => exact .moved _ i _ _ found (.answer a rfl)
    | _ => exact .same _
  | deliver i =>
    refine operation_change fun op found => ?_
    obtain ⟨key, request, signal, invocation, wait, outcome, recorded⟩ := op
    cases wait with
    | some _ => exact .same _
    | none =>
      cases invocation with
      | answered a => exact .moved _ i _ _ found (.deliver a rfl rfl)
      | _ => exact .same _
  | interrupt i =>
    refine operation_change fun op found => ?_
    obtain ⟨key, request, signal, invocation, wait, outcome, recorded⟩ := op
    cases wait with
    | some _ => exact .same _
    | none =>
      simp only [interrupt]
      by_cases halted : signal ∈ s.aborted
      · rw [if_pos halted]
        exact .moved _ i _ _ found (.interrupt rfl halted)
      · rw [if_neg halted]
        exact .same _
  | proceed i =>
    refine operation_change fun op found => ?_
    obtain ⟨key, request, signal, invocation, wait, outcome, recorded⟩ := op
    cases wait with
    | none => exact .same _
    | some x =>
      cases outcome with
      | some _ => exact .same _
      | none => exact .moved _ i _ _ found (.proceed x rfl rfl)
  | record i =>
    refine operation_change fun op found => ?_
    obtain ⟨key, request, signal, invocation, wait, outcome, recorded⟩ := op
    cases outcome with
    | none => exact .same _
    | some o =>
      cases o with
      | ok result => exact .moved _ i _ _ found (.note _ rfl)
      | error refusal => exact .forgot _ i _ refusal found rfl
  | cancel j =>
    refine call_change fun call found => ?_
    unfold Shared.cancel
    by_cases cancels : call.outcome.isNone ∧ call.signal ∈ s.aborted
    · rw [if_pos cancels]
      exact .told _ j call _ found (Option.isNone_iff_eq_none.mp cancels.1) (.inl ⟨rfl, cancels.2⟩)
    · rw [if_neg cancels]
      exact .same _
  | settle j =>
    refine call_change fun call found => ?_
    unfold Shared.settle
    cases waits : call.outcome with
    | some _ => exact .same _
    | none =>
      cases ended : (call.operation.bind (s.operations[·]?)).bind (·.outcome) with
      | none => exact .same _
      | some o =>
        obtain ⟨op, held, there⟩ := Option.bind_eq_some_iff.mp ended
        obtain ⟨i, joined, place⟩ := Option.bind_eq_some_iff.mp held
        exact .told _ j call o found waits (.inr ⟨i, op, joined, place, there⟩)

end Shared
end Steps

/-! ### Every state -/

namespace Shared

variable {i : Nat}

structure Heard (d : Discipline σ ι A ρ ε) (s : Shared κ σ S A ρ ε) (call : SharedCall κ σ S ρ ε) : Prop where
  shares : ∀ i, call.operation = some i → ∃ op, s.At i op ∧ op.key = call.key ∧
    d.signature op.request = d.signature call.request
  hears : ∀ o, call.outcome = some o → (o = .error (.aborted call.signal) ∧ call.signal ∈ s.aborted) ∨
    (o = .error .conflict ∨ o = .error .full) ∨
    ∃ i op, call.operation = some i ∧ s.At i op ∧ op.outcome = some o

def Grows (s t : Shared κ σ S A ρ ε) : Prop :=
  (∀ i op, s.At i op → ∃ next, t.At i next ∧ next.key = op.key ∧
    next.request = op.request ∧ ∀ o, op.outcome = some o → next.outcome = some o) ∧
  ∀ signal ∈ s.aborted, signal ∈ t.aborted

theorem Heard.grows (heard : s.Heard d call) (grows : s.Grows t) : t.Heard d call where
  shares := by
    intro i joined
    obtain ⟨op, found, key, agree⟩ := heard.shares i joined
    obtain ⟨next, there, sameKey, sameRequest, -⟩ := grows.1 i op found
    exact ⟨next, there, sameKey.trans key, by rw [sameRequest, agree]⟩
  hears := by
    intro o told
    rcases heard.hears o told with ⟨same, halted⟩ | refused | ⟨i, op, joined, found, ended⟩
    · exact .inl ⟨same, grows.2 _ halted⟩
    · exact .inr (.inl refused)
    · obtain ⟨next, there, -, -, outcome⟩ := grows.1 i op found
      exact .inr (.inr ⟨i, next, joined, there, outcome o ended⟩)

theorem at_set {i k : Nat} {other : Operation κ σ S A ρ ε} (found : s.At i op) :
    (s.operations.set i next)[k]? = some other ↔ (k = i ∧ other = next) ∨ (k ≠ i ∧ s.At k other) := by
  rw [getElem?_set_found found]
  by_cases here : i = k
  · subst here
    simp [eq_comm]
  · simp [here, Ne.symm here]

theorem grows_set (found : s.At i op) (key : next.key = op.key) (request : next.request = op.request)
    (outcome : ∀ o, op.outcome = some o → next.outcome = some o) (table : OrderedMap κ Nat) :
    s.Grows ({ s with table := table }.setOperation i next) := by
  refine ⟨fun k other there => ?_, fun _ member => member⟩
  by_cases here : k = i
  · subst here
    cases Option.some.inj (there.symm.trans found)
    exact ⟨next, (at_set found).mpr (.inl ⟨rfl, rfl⟩), key, request, outcome⟩
  · exact ⟨other, (at_set found).mpr (.inr ⟨here, there⟩), rfl, rfl, fun _ ended => ended⟩

theorem At.lt (found : s.At i op) : i < s.operations.length := (List.getElem?_eq_some_iff.mp found).1

theorem succeeded_pending (found : s.At i op) (pending : op.recorded = false) : s.succeeded i = false := by
  simp [succeeded, found, Operation.succeeded, pending]

theorem at_append {k : Nat} {other : Operation κ σ S A ρ ε} :
    (s.operations ++ [next])[k]? = some other ↔ s.At k other ∨ (k = s.operations.length ∧ other = next) := by
  by_cases inside : k < s.operations.length
  · rw [List.getElem?_append_left inside]
    constructor
    · exact .inl
    · rintro (there | ⟨outside, -⟩)
      · exact there
      · omega
  · rw [List.getElem?_append_right (Nat.le_of_not_lt inside)]
    constructor
    · intro there
      obtain ⟨here, same⟩ := List.getElem?_eq_some_iff.mp there
      rw [List.length_singleton] at here
      refine .inr ⟨by omega, ?_⟩
      rw [← same, List.getElem_singleton]
    · rintro (there | ⟨rfl, rfl⟩)
      · exact (inside there.lt).elim
      · simp

variable [DecidableEq κ] {table : OrderedMap κ Nat}

structure Sound (d : Discipline σ ι A ρ ε) (s : Shared κ σ S A ρ ε) : Prop where
  operations : ∀ i op, s.At i op → op.Sound d s.aborted
  entries : ∀ key i, s.table.get key = some i → ∃ op, s.At i op ∧ op.key = key ∧
    (op.recorded = true → ∃ result, op.outcome = some (.ok result))
  kept : ∀ i op, s.At i op → op.recorded = false → s.table.get op.key = some i
  bounded : s.table.size ≤ d.limit
  calls : ∀ call ∈ s.calls, s.Heard d call

theorem empty_sound : (empty : Shared κ σ S A ρ ε).Sound d where
  operations := by rintro i op ⟨⟩
  entries := by rintro key i ⟨⟩
  kept := by rintro i op ⟨⟩
  bounded := Nat.zero_le _
  calls := by rintro call ⟨⟩

theorem room_get (roomy : s.room d = some table) {key : κ}
    (named : table.get key = some i) : s.table.get key = some i := by
  unfold room at roomy
  split at roomy
  · cases roomy
    exact named
  · obtain ⟨entry, -, rfl⟩ := Option.map_eq_some_iff.mp roomy
    exact OrderedMap.get_of_delete named

theorem room_kept (roomy : s.room d = some table) {key : κ}
    (named : s.table.get key = some i) (pending : s.succeeded i = false) : table.get key = some i := by
  unfold room at roomy
  split at roomy
  · cases roomy
    exact named
  · obtain ⟨entry, chosen, rfl⟩ := Option.map_eq_some_iff.mp roomy
    have done := List.find?_some chosen
    have member := List.mem_of_find?_eq_some chosen
    have other : key ≠ entry.1 := by
      rintro rfl
      have same : s.table.get entry.1 = some entry.2 := OrderedMap.mem_entries_iff.mp member
      rw [named] at same
      cases same
      rw [pending] at done
      cases done
    rw [OrderedMap.get_delete_other _ other]
    exact named

theorem room_size (roomy : s.room d = some table) (bounded : s.table.size ≤ d.limit) :
    table.size < d.limit := by
  unfold room at roomy
  split at roomy
  · cases roomy
    assumption
  · obtain ⟨entry, chosen, rfl⟩ := Option.map_eq_some_iff.mp roomy
    have member := List.mem_of_find?_eq_some chosen
    have there : s.table.has entry.1 = true := OrderedMap.has_iff.mpr (List.mem_map_of_mem member)
    have smaller := OrderedMap.size_delete there
    omega

theorem size_touch (table : OrderedMap κ Nat) {key : κ} (named : table.get key = some i) :
    ((table.delete key).set key i).size = table.size := by
  have there : table.has key = true := by rw [OrderedMap.has, named]; rfl
  have smaller := OrderedMap.size_delete there
  rw [OrderedMap.size_set]
  simp [OrderedMap.has]
  omega

theorem get_touch (table : OrderedMap κ Nat) {key : κ} (named : table.get key = some i) (other : κ) :
    ((table.delete key).set key i).get other = table.get other := by
  by_cases same : other = key
  · subst same
    rw [OrderedMap.get_set_self, named]
  · rw [OrderedMap.get_set_other _ _ same, OrderedMap.get_delete_other _ same]

theorem Sound.set (sound : s.Sound d) (found : s.At i op)
    (next_sound : next.Sound d s.aborted) (key : next.key = op.key) (request : next.request = op.request)
    (outcome : ∀ o, op.outcome = some o → next.outcome = some o)
    (entries : ∀ key k, table.get key = some k → s.table.get key = some k ∧
      (k = i → next.recorded = true → ∃ result, next.outcome = some (.ok result)))
    (kept : ∀ key k, s.table.get key = some k → k ≠ i ∨ next.recorded = false → table.get key = some k)
    (unrecorded : next.recorded = false → op.recorded = false) (smaller : table.size ≤ s.table.size) :
    ({ s with table := table }.setOperation i next).Sound d where
  operations := by
    intro k other there
    rcases (at_set found).mp there with ⟨-, rfl⟩ | ⟨-, there⟩
    · exact next_sound
    · exact sound.operations k other there
  entries := by
    intro name k named
    obtain ⟨before, ended⟩ := entries name k named
    obtain ⟨other, there, keyed, recorded⟩ := sound.entries name k before
    by_cases here : k = i
    · subst here
      cases Option.some.inj (there.symm.trans found)
      exact ⟨next, (at_set found).mpr (.inl ⟨rfl, rfl⟩), key.trans keyed, ended rfl⟩
    · exact ⟨other, (at_set found).mpr (.inr ⟨here, there⟩), keyed, recorded⟩
  kept := by
    intro k other there pending
    rcases (at_set found).mp there with ⟨rfl, rfl⟩ | ⟨different, there⟩
    · rw [key]
      exact kept _ _ (sound.kept _ _ found (unrecorded pending)) (.inr pending)
    · exact kept _ _ (sound.kept k other there pending) (.inl different)
  bounded := Nat.le_trans smaller sound.bounded
  calls := fun call member => (sound.calls call member).grows (grows_set found key request outcome table)

theorem Sound.add_call (sound : s.Sound d) (heard : s.Heard d call) : ({ s with calls := s.calls ++ [call] }).Sound d where
  operations := sound.operations
  entries := sound.entries
  kept := sound.kept
  bounded := sound.bounded
  calls := by
    intro other member
    rcases List.mem_append.mp member with earlier | last
    · exact ⟨(sound.calls other earlier).shares, (sound.calls other earlier).hears⟩
    · cases List.mem_singleton.mp last
      exact ⟨heard.shares, heard.hears⟩

theorem Sound.touch {key : κ} (sound : s.Sound d) (named : s.table.get key = some i) :
    ({ s with table := (s.table.delete key).set key i }).Sound d where
  operations := sound.operations
  entries := by
    intro name k
    rw [get_touch _ named]
    exact sound.entries name k
  kept := by
    intro k other there pending
    rw [get_touch _ named]
    exact sound.kept k other there pending
  bounded := by
    rw [size_touch _ named]
    exact sound.bounded
  calls := fun other member => ⟨(sound.calls other member).shares, (sound.calls other member).hears⟩

theorem Sound.start {key : κ} (sound : s.Sound d) (absent : s.table.get key = none)
    (roomy : s.room d = some table) (request : σ) (signal : S) :
    ({ s with table := table.set key s.operations.length
              operations := s.operations ++ [Operation.start key request signal] }).Sound d := by
  have free : table.get key = none := by
    cases named : table.get key with
    | none => rfl
    | some i =>
      rw [room_get roomy named] at absent
      cases absent
  constructor
  · intro k other there
    rcases at_append.mp there with there | ⟨-, rfl⟩
    · exact sound.operations k other there
    · exact Operation.start_sound key request signal
  · intro name k named
    by_cases here : name = key
    · subst here
      rw [OrderedMap.get_set_self] at named
      cases named
      exact ⟨_, at_append.mpr (.inr ⟨rfl, rfl⟩), rfl, by rintro ⟨⟩⟩
    · rw [OrderedMap.get_set_other _ _ here] at named
      obtain ⟨other, there, keyed, recorded⟩ := sound.entries name k (room_get roomy named)
      exact ⟨other, at_append.mpr (.inl there), keyed, recorded⟩
  · intro k other there pending
    rcases at_append.mp there with there | ⟨rfl, rfl⟩
    · have entry := sound.kept k other there pending
      have different : other.key ≠ key := by
        intro same
        rw [same, absent] at entry
        cases entry
      show (table.set key _).get other.key = some k
      rw [OrderedMap.get_set_other _ _ different]
      exact room_kept roomy entry (succeeded_pending there pending)
    · exact OrderedMap.get_set_self _ _ _
  · show (table.set key _).size ≤ d.limit
    have unlisted : table.has key = false := by rw [OrderedMap.has, free]; rfl
    rw [OrderedMap.size_set, unlisted]
    exact room_size roomy sound.bounded
  · intro other member
    refine (sound.calls other member).grows ⟨fun k op there => ?_, fun _ member => member⟩
    exact ⟨op, at_append.mpr (.inl there), rfl, rfl, fun _ ended => ended⟩

theorem Sound.entry_open (sound : s.Sound d) (found : s.At i op) (waits : op.outcome = none) :
    s.table.get op.key = some i := by
  apply sound.kept i op found
  by_contra recorded
  obtain ⟨o, ended⟩ := (sound.operations i op found).noted (Bool.not_eq_false _ ▸ recorded)
  rw [waits] at ended
  cases ended

/-- A result that a call gets is read from an answer to the request of its operation. -/
theorem Sound.result {result : ρ} (sound : s.Sound d) (member : call ∈ s.calls) (told : call.outcome = some (.ok result)) :
    ∃ i op a, call.operation = some i ∧ s.At i op ∧ d.signature op.request = d.signature call.request ∧
      op.invocation = .answered a ∧ d.read op.request a = .ok result := by
  have heard := sound.calls call member
  rcases heard.hears _ told with ⟨same, -⟩ | refused | ⟨i, op, joined, found, ended⟩
  · cases same
  · rcases refused with same | same <;> cases same
  · obtain ⟨own, there, -, agree⟩ := heard.shares i joined
    cases Option.some.inj (there.symm.trans found)
    obtain ⟨a, answered, read⟩ := (sound.operations i op found).result ended
    exact ⟨i, op, a, joined, found, agree, answered, read⟩

variable [DecidableEq S] {event : SharedEvent κ σ S A}

theorem Sound.change (sound : s.Sound d) (change : Change d s event t) : t.Sound d := by
  cases change with
  | same _ => exact sound
  | refused key request signal refusal why =>
    refine sound.add_call ⟨by rintro i ⟨⟩, ?_⟩
    rintro o ⟨⟩
    rcases why with ⟨rfl, halted⟩ | rfl | rfl
    · exact .inl ⟨rfl, halted⟩
    · exact .inr (.inl (.inl rfl))
    · exact .inr (.inl (.inr rfl))
  | joined key request signal i op lives named found agree =>
    refine (sound.touch named).add_call ⟨?_, by rintro o ⟨⟩⟩
    rintro k ⟨⟩
    obtain ⟨other, there, keyed, -⟩ := sound.entries key i named
    cases Option.some.inj (there.symm.trans found)
    exact ⟨op, found, keyed, agree⟩
  | began key request signal table lives absent roomy =>
    refine (sound.start absent roomy request signal).add_call ⟨?_, by rintro o ⟨⟩⟩
    rintro k ⟨⟩
    exact ⟨Operation.start key request signal, List.getElem?_concat_length, rfl, rfl⟩
  | moved _ i op next found move =>
    obtain ⟨key, request, -, outcome⟩ := move.same
    have next_sound := (sound.operations i op found).move move
    have pending : next.recorded = false → op.recorded = false := by
      cases move <;> simp
    refine sound.set found next_sound key request outcome (fun name k named => ⟨named, ?_⟩) (fun _ _ named _ => named) pending
      (Nat.le_refl _)
    rintro rfl recorded
    obtain ⟨other, there, -, done⟩ := sound.entries name k named
    cases Option.some.inj (there.symm.trans found)
    cases move with
    | note result succeeds => exact ⟨result, succeeds⟩
    | _ =>
      obtain ⟨result, ended⟩ := done recorded
      exact ⟨result, outcome _ ended⟩
  | forgot _ i op refusal found ended =>
    have owns (name : κ) (named : s.table.get name = some i) : op.key = name := by
      obtain ⟨other, there, keyed, -⟩ := sound.entries name i named
      cases Option.some.inj (there.symm.trans found)
      exact keyed
    have recorded_sound : ({ op with recorded := true } : Operation κ σ S A ρ ε).Sound d s.aborted :=
      have before := sound.operations i op found
      ⟨before.delivered, before.interrupted, before.came, fun _ => ⟨_, ended⟩⟩
    refine sound.set found recorded_sound rfl rfl (fun _ same => same) ?_ ?_ (by rintro ⟨⟩) ?_
    · intro name k named
      by_cases entry : s.table.get op.key = some i
      · rw [if_pos entry] at named
        refine ⟨OrderedMap.get_of_delete named, ?_⟩
        rintro rfl
        have same := owns name (OrderedMap.get_of_delete named)
        rw [same, OrderedMap.get_delete_self] at named
        cases named
      · rw [if_neg entry] at named
        refine ⟨named, ?_⟩
        rintro rfl
        rw [← owns name named] at named
        exact (entry named).elim
    · intro name k named pending
      have different : k ≠ i := pending.resolve_right (by simp)
      by_cases entry : s.table.get op.key = some i
      · have other : name ≠ op.key := by
          rintro rfl
          exact different (Option.some.inj (named.symm.trans entry))
        rw [if_pos entry, OrderedMap.get_delete_other _ other]
        exact named
      · rw [if_neg entry]
        exact named
    · split
      · exact OrderedMap.size_delete_le _ _
      · exact Nat.le_refl _
  | aborts signal =>
    have grows : s.Grows { s with aborted := signal :: s.aborted } :=
      ⟨fun i op there => ⟨op, there, rfl, rfl, fun _ ended => ended⟩, fun _ member => List.mem_cons_of_mem _ member⟩
    exact ⟨fun i op there => (sound.operations i op there).mono grows.2, sound.entries, sound.kept, sound.bounded,
      fun call member => (sound.calls call member).grows grows⟩
  | told _ j call o found waits why =>
    refine ⟨sound.operations, sound.entries, sound.kept, sound.bounded, fun other member => ?_⟩
    rcases List.mem_or_eq_of_mem_set member with earlier | rfl
    · exact ⟨(sound.calls other earlier).shares, (sound.calls other earlier).hears⟩
    · refine ⟨(sound.calls call (List.mem_of_getElem? found)).shares, ?_⟩
      rintro o' ⟨⟩
      rcases why with own | shared
      · exact .inl own
      · exact .inr (.inr shared)

/-! ### What the users rely on -/

theorem asked_change {P : σ → Prop} (all : ∀ i op, s.At i op → P op.request)
    (given : ∀ key request signal, event = .call key request signal → P request) (change : Change d s event t) :
    ∀ i op, t.At i op → P op.request := by
  cases change with
  | began key request signal table lives absent roomy =>
    intro k other there
    rcases at_append.mp there with there | ⟨-, rfl⟩
    · exact all k other there
    · exact given key request signal rfl
  | moved _ i op next found move =>
    intro k other there
    rcases (at_set found).mp there with ⟨-, rfl⟩ | ⟨-, there⟩
    · rw [move.same.2.1]
      exact all i op found
    · exact all k other there
  | forgot _ i op refusal found ended =>
    intro k other there
    rcases (at_set found).mp there with ⟨-, rfl⟩ | ⟨-, there⟩
    · exact all i op found
    · exact all k other there
  | _ => exact all

variable [DecidableEq ι] {key : κ} {request : σ} {signal : S}

theorem request_conflict (lives : signal ∉ s.aborted) (named : s.table.get key = some i) (found : s.At i op)
    (differ : d.signature op.request ≠ d.signature request) :
    s.request d key request signal = s.refuse key request signal .conflict := by
  unfold Shared.request
  rw [if_neg lives, named]
  dsimp only
  rw [show s.operations[i]? = some op from found]
  exact if_pos differ

theorem request_joins (lives : signal ∉ s.aborted) (named : s.table.get key = some i) (found : s.At i op)
    (agree : d.signature op.request = d.signature request) : s.request d key request signal =
      ({ s with table := (s.table.delete key).set key i }.join key request signal i) := by
  unfold Shared.request
  rw [if_neg lives, named]
  dsimp only
  rw [show s.operations[i]? = some op from found]
  exact if_neg (not_not.mpr agree)

end Shared
end Concurrent

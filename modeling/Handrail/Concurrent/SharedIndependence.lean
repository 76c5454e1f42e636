import Handrail.Concurrent.SharedSafety

/-!
# When sharing is independent

An operation runs under the signal of the call that started it. As long as no such signal is aborted while another call waits
for the operation, and no operation starts while an abandoned invocation for its key still runs, every call is rejected by its
own signal only, and invocations that clash never overlap.
-/

namespace Concurrent
open Js

variable {κ σ ι S A ρ ε : Type} {d : Discipline σ ι A ρ ε} {aborted : List S}
  {op next : Operation κ σ S A ρ ε} {call : SharedCall κ σ S ρ ε} {s t : Shared κ σ S A ρ ε}

/-! ### One operation -/

def Operation.Exposed (d : Discipline σ ι A ρ ε) (op : Operation κ σ S A ρ ε) : Prop :=
  op.outcome = none ∧ ∀ a, op.wait = some (some a) → d.looksAfter a = true

def Operation.Doomed (d : Discipline σ ι A ρ ε) (aborted : List S) (op : Operation κ σ S A ρ ε) : Prop :=
  op.signal ∈ aborted ∧ (op.Exposed d ∨ ∃ signal, op.outcome = some (.error (.aborted signal)))

def Operation.Busy (d : Discipline σ ι A ρ ε) (aborted : List S) (op : Operation κ σ S A ρ ε) : Prop :=
  op.invocation = .running ∨ (op.invocation = .waiting ∧ ¬(d.looksBefore = true ∧ op.signal ∈ aborted))

theorem Move.doomed [DecidableEq S] (move : Move d aborted op next) (doomed : next.Doomed d aborted) : op.Doomed d aborted := by
  obtain ⟨halted, kinds⟩ := doomed
  cases move with
  | deliver a waits answered =>
    refine ⟨halted, kinds.imp_left fun exposed => ⟨exposed.1, fun b waited => ?_⟩⟩
    rw [waits] at waited
    cases waited
  | interrupt waits signal =>
    refine ⟨halted, kinds.imp_left fun exposed => ⟨exposed.1, fun b waited => ?_⟩⟩
    rw [waits] at waited
    cases waited
  | proceed x waited open_ =>
    refine ⟨halted, .inl ⟨open_, fun a same => ?_⟩⟩
    rcases kinds with exposed | ⟨signal, ended⟩
    · cases exposed.1
    · rw [waited] at same
      cases same
      have ended := Option.some.inj ended
      simp only [Operation.outcomeOf] at ended
      split at ended
      · rename_i discards
        rw [Bool.and_eq_true] at discards
        exact discards.2
      · split at ended <;> cases ended
  | _ => exact ⟨halted, kinds⟩

theorem Move.busy [DecidableEq S] (move : Move d aborted op next) (busy : next.Busy d aborted) : op.Busy d aborted := by
  cases move with
  | skip waits halted => simp [Operation.Busy] at busy
  | invoke waits lives => exact .inr ⟨waits, lives⟩
  | answer a runs => exact .inl runs
  | _ => exact busy

theorem Operation.Busy.of_more {more : List S} (busy : op.Busy d more) (grows : ∀ signal ∈ aborted, signal ∈ more) :
    op.Busy d aborted :=
  busy.imp_right fun waits => ⟨waits.1, fun halted => waits.2 ⟨halted.1, grows _ halted.2⟩⟩

namespace Shared

/-! ### The condition on a step -/

variable [DecidableEq κ] (clash : σ → σ → Prop)

/-- The step neither aborts an operation that another call waits for nor starts one beside an abandoned invocation. -/
def Meets (d : Discipline σ ι A ρ ε) (s : Shared κ σ S A ρ ε) : SharedEvent κ σ S A → Prop
  | .call key request signal => signal ∉ s.aborted →
      (∀ i op, s.table.get key = some i → s.At i op → ¬op.Doomed d s.aborted) ∧
      (s.table.get key = none → ∀ i op, s.At i op → op.key = key → clash op.request request → ¬op.Busy d s.aborted)
  | .abort signal => ∀ i op call, s.At i op → op.signal = signal → op.Exposed d → call ∈ s.calls →
      call.operation = some i → call.outcome = none → call.signal = signal
  | _ => True

structure Independent (d : Discipline σ ι A ρ ε) (s : Shared κ σ S A ρ ε) : Prop where
  /-- Only calls with its own signal wait for a doomed operation. -/
  private_ : ∀ i op call, s.At i op → call ∈ s.calls → call.operation = some i → call.outcome = none →
    op.Doomed d s.aborted → call.signal = op.signal
  own : ∀ call signal, call ∈ s.calls → call.outcome = some (.error (.aborted signal)) → signal = call.signal
  /-- No operation is busy beside another one, or beside one that has an entry. -/
  alone : ∀ i j op other, s.At i op → s.At j other → i ≠ j → op.key = other.key → clash op.request other.request →
    (op.Busy d s.aborted ∨ s.table.get op.key = some i) → ¬other.Busy d s.aborted

variable {clash}

theorem empty_independent : (empty : Shared κ σ S A ρ ε).Independent clash d where
  private_ := by rintro i op call ⟨⟩
  own := by rintro call signal ⟨⟩
  alone := by rintro i j op other ⟨⟩

theorem Independent.set {i : Nat} {table : OrderedMap κ Nat} (independent : s.Independent clash d) (found : s.At i op)
    (key : next.key = op.key) (request : next.request = op.request) (signal : next.signal = op.signal)
    (doomed : next.Doomed d s.aborted → op.Doomed d s.aborted) (busy : next.Busy d s.aborted → op.Busy d s.aborted)
    (entries : ∀ name k, table.get name = some k → s.table.get name = some k) :
    ({ s with table := table }.setOperation i next).Independent clash d where
  private_ := by
    intro k other call there member joined waits halted
    rcases (at_set found).mp there with ⟨rfl, rfl⟩ | ⟨-, there⟩
    · rw [signal]
      exact independent.private_ k op call found member joined waits (doomed halted)
    · exact independent.private_ k other call there member joined waits halted
  own := independent.own
  alone := by
    -- Each operation was there before, with its key and request, and is busy only if it was.
    have before (k : Nat) (other : Operation κ σ S A ρ ε) (there : (s.operations.set i next)[k]? = some other) :
        ∃ old, s.At k old ∧ other.key = old.key ∧ other.request = old.request ∧
          (other.Busy d s.aborted → old.Busy d s.aborted) := by
      rcases (at_set found).mp there with ⟨rfl, rfl⟩ | ⟨-, there⟩
      · exact ⟨op, found, key, request, busy⟩
      · exact ⟨other, there, rfl, rfl, fun runs => runs⟩
    intro k j first second there there' different same clashes reason runs
    obtain ⟨old, place, keyed, asked, was⟩ := before k first there
    obtain ⟨old', place', keyed', asked', was'⟩ := before j second there'
    refine independent.alone k j old old' place place' different (by rw [← keyed, ← keyed', same]) (by rwa [← asked, ← asked'])
      ?_ (was' runs)
    rcases reason with runs | entry
    · exact .inl (was runs)
    · rw [keyed] at entry
      exact .inr (entries _ _ entry)

theorem Independent.add_call (independent : s.Independent clash d)
    (private_ : ∀ i op, call.operation = some i → call.outcome = none → s.At i op → ¬op.Doomed d s.aborted)
    (own : ∀ signal, call.outcome = some (.error (.aborted signal)) → signal = call.signal) :
    ({ s with calls := s.calls ++ [call] }).Independent clash d where
  private_ := by
    intro i op other there member joined waits halted
    rcases List.mem_append.mp member with earlier | last
    · exact independent.private_ i op other there earlier joined waits halted
    · cases List.mem_singleton.mp last
      exact (private_ i op joined waits there halted).elim
  own := by
    intro other signal member told
    rcases List.mem_append.mp member with earlier | last
    · exact independent.own other signal earlier told
    · cases List.mem_singleton.mp last
      exact own signal told
  alone := independent.alone

theorem Independent.start {key : κ} {request : σ} {signal : S} {table : OrderedMap κ Nat} (independent : s.Independent clash d)
    (sound : s.Sound d) (symmetric : ∀ x y, clash x y → clash y x)
    (absent : s.table.get key = none) (roomy : s.room d = some table)
    (calm : ∀ i op, s.At i op → op.key = key → clash op.request request → ¬op.Busy d s.aborted) :
    ({ s with table := table.set key s.operations.length
              operations := s.operations ++ [Operation.start key request signal] }).Independent clash d where
  private_ := by
    intro i op call there member joined waits halted
    obtain ⟨old, place, -⟩ := (sound.calls call member).shares i joined
    have same : (s.operations ++ [Operation.start key request signal])[i]? = some old := by
      rw [List.getElem?_append_left place.lt]
      exact place
    cases Option.some.inj (there.symm.trans same)
    exact independent.private_ i op call place member joined waits halted
  own := independent.own
  alone := by
    have entry (name : κ) (k : Nat) (inside : k < s.operations.length)
        (named : (table.set key s.operations.length).get name = some k) : s.table.get name = some k := by
      by_cases here : name = key
      · subst here
        rw [OrderedMap.get_set_self] at named
        cases named
        omega
      · rw [OrderedMap.get_set_other _ _ here] at named
        exact room_get roomy named
    intro i j op other there there' different same clashes reason runs
    rcases at_append.mp there with there | ⟨rfl, rfl⟩
    · rcases at_append.mp there' with there' | ⟨rfl, rfl⟩
      · exact independent.alone i j op other there there' different same clashes
          (reason.imp_right (entry _ _ there.lt)) runs
      · -- The new operation runs beside an old one of its key.
        rcases reason with busy | named
        · exact calm i op there same clashes busy
        · have before := entry _ _ there.lt named
          rw [show op.key = key from same, absent] at before
          cases before
    · rcases at_append.mp there' with there' | ⟨rfl, rfl⟩
      · exact calm j other there' same.symm (symmetric _ _ clashes) runs
      · exact different rfl

theorem Independent.change [DecidableEq S] {event : SharedEvent κ σ S A} (independent : s.Independent clash d) (sound : s.Sound d)
    (symmetric : ∀ x y, clash x y → clash y x) (meets : s.Meets clash d event) (change : Change d s event t) :
    t.Independent clash d := by
  cases change with
  | same _ => exact independent
  | refused key request signal refusal why =>
    refine independent.add_call (by rintro i op ⟨⟩) ?_
    rintro other ⟨⟩
    rcases why with ⟨same, -⟩ | same | same
    · cases same
      rfl
    · cases same
    · cases same
  | joined key request signal i op lives named found agree =>
    have touched : ({ s with table := (s.table.delete key).set key i }).Independent clash d :=
      ⟨independent.private_, independent.own, fun a b first second there there' different same clashes reason =>
        independent.alone a b first second there there' different same clashes
          (reason.imp_right fun entry => (get_touch s.table named _).symm.trans entry)⟩
    refine touched.add_call ?_ (by rintro other ⟨⟩)
    rintro k other ⟨⟩ - there
    exact (meets lives).1 i other named there
  | began key request signal table lives absent roomy =>
    refine (independent.start sound symmetric absent roomy ((meets lives).2 absent)).add_call ?_ (by rintro other ⟨⟩)
    rintro k other ⟨⟩ - there halted
    rcases at_append.mp there with there | ⟨-, rfl⟩
    · exact Nat.lt_irrefl _ there.lt
    · exact lives halted.1
  | moved _ i op next found move =>
    obtain ⟨key, request, signal, -⟩ := move.same
    exact independent.set found key request signal move.doomed move.busy fun _ _ named => named
  | forgot _ i op refusal found ended =>
    refine independent.set found rfl rfl rfl (fun halted => halted) (fun busy => busy) fun name k named => ?_
    split at named
    · exact OrderedMap.get_of_delete named
    · exact named
  | aborts signal =>
    have grows (other : S) (member : other ∈ s.aborted) : other ∈ signal :: s.aborted := List.mem_cons_of_mem _ member
    refine ⟨?_, independent.own, ?_⟩
    · intro i op call there member joined waits halted
      by_cases earlier : op.signal ∈ s.aborted
      · exact independent.private_ i op call there member joined waits ⟨earlier, halted.2⟩
      · have here : op.signal = signal := (List.mem_cons.mp halted.1).resolve_right earlier
        rcases halted.2 with exposed | ⟨other, ended⟩
        · rw [here]
          exact meets i op call there here exposed member joined waits
        · exact (earlier ((sound.operations i op there).abort ended).2).elim
    · intro i j op other there there' different same clashes reason runs
      exact independent.alone i j op other there there' different same clashes
        (reason.imp_left fun busy => busy.of_more grows) (runs.of_more grows)
  | told _ j call o found waits why =>
    refine ⟨?_, ?_, independent.alone⟩
    · intro i op other there member joined pending halted
      rcases List.mem_or_eq_of_mem_set member with earlier | rfl
      · exact independent.private_ i op other there earlier joined pending halted
      · cases pending
    · intro other signal member told
      rcases List.mem_or_eq_of_mem_set member with earlier | rfl
      · exact independent.own other signal earlier told
      · cases told
        rcases why with ⟨same, -⟩ | ⟨i, op, joined, there, ended⟩
        · cases same
          rfl
        · obtain ⟨same, halted⟩ := (sound.operations i op there).abort ended
          rw [same]
          exact (independent.private_ i op call there (List.mem_of_getElem? found) joined waits
            ⟨halted, .inr ⟨_, ended⟩⟩).symm

/-! ### Runs without aborts -/

theorem Change.keeps_aborted [DecidableEq S] {event : SharedEvent κ σ S A} (quiet : ∀ signal, event ≠ .abort signal)
    (change : Change d s event t) :
    t.aborted = s.aborted := by
  cases change with
  | aborts signal => exact (quiet signal rfl).elim
  | _ => rfl

/-- An operation whose signal lives is the entry of its key as long as its invocation runs, or will. -/
theorem Sound.busy_entry {i : Nat} (sound : s.Sound d) (found : s.At i op) (lives : op.signal ∉ s.aborted)
    (busy : op.Busy d s.aborted) : s.table.get op.key = some i := by
  apply sound.entry_open found
  by_contra ended
  obtain ⟨o, ended⟩ := Option.ne_none_iff_exists'.mp ended
  obtain ⟨x, b, waited, -, -⟩ := (sound.operations i op found).came o ended
  cases x with
  | none => exact lives ((sound.operations i op found).interrupted waited)
  | some a =>
    have answered := (sound.operations i op found).delivered a waited
    simp [Operation.Busy, answered] at busy

theorem Sound.quiet_meets {event : SharedEvent κ σ S A} (sound : s.Sound d) (calm : s.aborted = [])
    (quiet : ∀ signal, event ≠ .abort signal) : s.Meets clash d event := by
  cases event with
  | call key request signal =>
    intro _
    refine ⟨fun i op _ _ doomed => ?_, ?_⟩
    · have halted := doomed.1
      rw [calm] at halted
      cases halted
    · intro absent i op found same _ busy
      have named := sound.busy_entry found (by simp [calm]) busy
      rw [same, absent] at named
      cases named
  | abort signal => exact (quiet signal rfl).elim
  | _ => trivial

end Shared
end Concurrent

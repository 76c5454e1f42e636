import Handrail.Js.OrderedMap
import Handrail.Concurrent.Named

/-!
# Operations shared by key

A bounded table of operations that calls with the same key and the same request share. An operation runs under the signal of
the call that started it, every call waits under its own signal, a failed operation gives its key up, and the oldest
successful one makes room.
-/

namespace Concurrent
open Js

structure Discipline (σ ι A ρ ε : Type) where
  limit : Nat
  /-- What two calls must agree on to share an operation. -/
  signature : σ → ι
  /-- The operation is not invoked once its signal is aborted. -/
  looksBefore : Bool
  /-- An abort of the signal takes the place of this answer. -/
  looksAfter : A → Bool
  read : σ → A → Except ε ρ

inductive Refusal (S ε : Type) where
  | aborted (signal : S)
  | failed (error : ε)
  | conflict
  | full

inductive Invocation (A : Type) where
  | waiting
  | running
  | answered (answer : A)
  | skipped

structure Operation (κ σ S A ρ ε : Type) where
  key : κ
  request : σ
  signal : S
  invocation : Invocation A
  /-- What the wait for the invocation under the operation's signal ended with: `some none` is an abort. -/
  wait : Option (Option A)
  outcome : Option (Except (Refusal S ε) ρ)
  /-- The table has taken note of the outcome. -/
  recorded : Bool

structure SharedCall (κ σ S ρ ε : Type) where
  key : κ
  request : σ
  signal : S
  operation : Option Nat
  outcome : Option (Except (Refusal S ε) ρ)

structure Shared (κ σ S A ρ ε : Type) where
  table : OrderedMap κ Nat
  operations : List (Operation κ σ S A ρ ε)
  calls : List (SharedCall κ σ S ρ ε)
  aborted : List S

inductive SharedEvent (κ σ S A : Type) where
  | call (key : κ) (request : σ) (signal : S)
  | invoke (i : Nat)
  | answer (i : Nat) (answer : A)
  /-- The wait for the invocation sees its answer. -/
  | deliver (i : Nat)
  /-- The abort listener of the wait for the invocation. -/
  | interrupt (i : Nat)
  /-- The operation goes on behind that wait. -/
  | proceed (i : Nat)
  | record (i : Nat)
  | abort (signal : S)
  /-- The abort listener of a call. -/
  | cancel (j : Nat)
  /-- A call sees the outcome of its operation. -/
  | settle (j : Nat)

namespace Operation
variable {κ σ S A ρ ε : Type}

def start (key : κ) (request : σ) (signal : S) : Operation κ σ S A ρ ε := ⟨key, request, signal, .waiting, none, none, false⟩

def outcomeOf {ι : Type} (d : Discipline σ ι A ρ ε) (op : Operation κ σ S A ρ ε) (aborted : Bool) :
    Option A → Except (Refusal S ε) ρ
  | none => .error (.aborted op.signal)
  | some answer =>
    if aborted && d.looksAfter answer then .error (.aborted op.signal)
    else match d.read op.request answer with
      | .ok result => .ok result
      | .error error => .error (.failed error)

def succeeded (op : Operation κ σ S A ρ ε) : Bool :=
  op.recorded && match op.outcome with
    | some (.ok _) => true
    | _ => false

end Operation

namespace Shared
variable {κ σ ι S A ρ ε : Type}

def empty : Shared κ σ S A ρ ε := ⟨.empty, [], [], []⟩

def refuse (s : Shared κ σ S A ρ ε) (key : κ) (request : σ) (signal : S) (refusal : Refusal S ε) : Shared κ σ S A ρ ε :=
  { s with calls := s.calls ++ [⟨key, request, signal, none, some (.error refusal)⟩] }

def join (s : Shared κ σ S A ρ ε) (key : κ) (request : σ) (signal : S) (i : Nat) : Shared κ σ S A ρ ε :=
  { s with calls := s.calls ++ [⟨key, request, signal, some i, none⟩] }

def setOperation (s : Shared κ σ S A ρ ε) (i : Nat) (op : Operation κ σ S A ρ ε) : Shared κ σ S A ρ ε :=
  { s with operations := s.operations.set i op }

def setCall (s : Shared κ σ S A ρ ε) (j : Nat) (call : SharedCall κ σ S ρ ε) : Shared κ σ S A ρ ε :=
  { s with calls := s.calls.set j call }

def succeeded (s : Shared κ σ S A ρ ε) (i : Nat) : Bool :=
  match s.operations[i]? with
  | some op => op.succeeded
  | none => false

variable [DecidableEq κ] [DecidableEq ι] [DecidableEq S]

def room (d : Discipline σ ι A ρ ε) (s : Shared κ σ S A ρ ε) : Option (OrderedMap κ Nat) :=
  if s.table.size < d.limit then some s.table
  else (s.table.entries.find? fun entry => s.succeeded entry.2).map fun entry => s.table.delete entry.1

def begin (d : Discipline σ ι A ρ ε) (s : Shared κ σ S A ρ ε) (key : κ) (request : σ) (signal : S) : Shared κ σ S A ρ ε :=
  match s.room d with
  | none => s.refuse key request signal .full
  | some table =>
    { s with table := table.set key s.operations.length
             operations := s.operations ++ [Operation.start key request signal] }.join key request signal s.operations.length

def request (d : Discipline σ ι A ρ ε) (s : Shared κ σ S A ρ ε) (key : κ) (request : σ) (signal : S) : Shared κ σ S A ρ ε :=
  if signal ∈ s.aborted then s.refuse key request signal (.aborted signal)
  else match s.table.get key with
    | none => s.begin d key request signal
    | some i =>
      match s.operations[i]? with
      | none => s
      | some op =>
        if d.signature op.request ≠ d.signature request then s.refuse key request signal .conflict
        else { s with table := (s.table.delete key).set key i }.join key request signal i

def invoke (d : Discipline σ ι A ρ ε) (s : Shared κ σ S A ρ ε) (i : Nat) (op : Operation κ σ S A ρ ε) : Shared κ σ S A ρ ε :=
  match op.invocation with
  | .waiting => s.setOperation i { op with
      invocation := if d.looksBefore && decide (op.signal ∈ s.aborted) then .skipped else .running }
  | _ => s

def answer (s : Shared κ σ S A ρ ε) (i : Nat) (answer : A) (op : Operation κ σ S A ρ ε) : Shared κ σ S A ρ ε :=
  match op.invocation with
  | .running => s.setOperation i { op with invocation := .answered answer }
  | _ => s

def deliver (s : Shared κ σ S A ρ ε) (i : Nat) (op : Operation κ σ S A ρ ε) : Shared κ σ S A ρ ε :=
  match op.wait, op.invocation with
  | none, .answered answer => s.setOperation i { op with wait := some (some answer) }
  | _, _ => s

def interrupt (s : Shared κ σ S A ρ ε) (i : Nat) (op : Operation κ σ S A ρ ε) : Shared κ σ S A ρ ε :=
  match op.wait with
  | none => if op.signal ∈ s.aborted then s.setOperation i { op with wait := some none } else s
  | some _ => s

def proceed (d : Discipline σ ι A ρ ε) (s : Shared κ σ S A ρ ε) (i : Nat) (op : Operation κ σ S A ρ ε) : Shared κ σ S A ρ ε :=
  match op.wait, op.outcome with
  | some answer, none =>
    s.setOperation i { op with outcome := some (op.outcomeOf d (decide (op.signal ∈ s.aborted)) answer) }
  | _, _ => s

def record (s : Shared κ σ S A ρ ε) (i : Nat) (op : Operation κ σ S A ρ ε) : Shared κ σ S A ρ ε :=
  match op.outcome with
  | none => s
  | some (.ok _) => s.setOperation i { op with recorded := true }
  | some (.error _) =>
    { s with table := if s.table.get op.key = some i then s.table.delete op.key else s.table }.setOperation i
      { op with recorded := true }

def cancel (s : Shared κ σ S A ρ ε) (j : Nat) (call : SharedCall κ σ S ρ ε) : Shared κ σ S A ρ ε :=
  if call.outcome.isNone ∧ call.signal ∈ s.aborted then
    s.setCall j { call with outcome := some (.error (.aborted call.signal)) }
  else s

def settle (s : Shared κ σ S A ρ ε) (j : Nat) (call : SharedCall κ σ S ρ ε) : Shared κ σ S A ρ ε :=
  match call.outcome, (call.operation.bind (s.operations[·]?)).bind (·.outcome) with
  | none, some outcome => s.setCall j { call with outcome := some outcome }
  | _, _ => s

def withOperation (s : Shared κ σ S A ρ ε) (i : Nat) (move : Operation κ σ S A ρ ε → Shared κ σ S A ρ ε) :
    Shared κ σ S A ρ ε :=
  match s.operations[i]? with
  | some op => move op
  | none => s

def withCall (s : Shared κ σ S A ρ ε) (j : Nat) (move : SharedCall κ σ S ρ ε → Shared κ σ S A ρ ε) : Shared κ σ S A ρ ε :=
  match s.calls[j]? with
  | some call => move call
  | none => s

def step (d : Discipline σ ι A ρ ε) (s : Shared κ σ S A ρ ε) : SharedEvent κ σ S A → Shared κ σ S A ρ ε
  | .call key request signal => s.request d key request signal
  | .invoke i => s.withOperation i (s.invoke d i)
  | .answer i answer => s.withOperation i (s.answer i answer)
  | .deliver i => s.withOperation i (s.deliver i)
  | .interrupt i => s.withOperation i (s.interrupt i)
  | .proceed i => s.withOperation i (s.proceed d i)
  | .record i => s.withOperation i (s.record i)
  | .abort signal => { s with aborted := signal :: s.aborted }
  | .cancel j => s.withCall j (s.cancel j)
  | .settle j => s.withCall j (s.settle j)

end Shared
end Concurrent

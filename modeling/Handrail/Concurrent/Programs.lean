import Mathlib.Logic.Relation
import Mathlib.Data.List.Basic

/-!
# Programs over a shared object

Processes take turns: one step calls the shared object once, reads the outside, puts something out,
or starts another process. A process that stops being scheduled has crashed. Loops are jumps to
labels, so a program between two labels is a finite tree.
-/

namespace Concurrent

inductive Program (Op : Type) (Reply : Op → Type) (Reading Label Output : Type) where
  /-- One atomic call of the shared object. -/
  | call (op : Op) (next : Reply op → Program Op Reply Reading Label Output)
  | read (next : Reading → Program Op Reply Reading Label Output)
  | emit (output : Output) (next : Program Op Reply Reading Label Output)
  /-- Starts a process, and learns whether it was started. -/
  | spawn (label : Label) (next : Bool → Program Op Reply Reading Label Output)
  | jump (label : Label)
  | done

variable {Shared Op Reading Label Output Kind : Type} {Reply : Op → Type}

def Program.isDone : Program Op Reply Reading Label Output → Bool
  | .done => true
  | _ => false

def Program.emitAll (outputs : List Output) (next : Program Op Reply Reading Label Output) :
    Program Op Reply Reading Label Output := outputs.foldr .emit next

structure Code (Shared Op Reading Label Output Kind : Type) (Reply : Op → Type) where
  perform : (op : Op) → Shared → Shared × Reply op
  body : Label → Program Op Reply Reading Label Output
  /-- The kind of the process that a label starts. -/
  kind : Label → Kind
  /-- Of an exclusive kind one process is going at a time. -/
  exclusive : Kind → Bool

structure Process (Op : Type) (Reply : Op → Type) (Reading Label Output Kind : Type) where
  kind : Kind
  program : Program Op Reply Reading Label Output
  outputs : List Output

structure System (Shared Op : Type) (Reply : Op → Type) (Reading Label Output Kind : Type) where
  shared : Shared
  processes : List (Process Op Reply Reading Label Output Kind)

inductive Action (Reading Label : Type) where
  | start (label : Label)
  | advance (process : Nat) (reading : Reading)

namespace Code
variable [DecidableEq Kind] (code : Code Shared Op Reading Label Output Kind Reply)

def isBusy (processes : List (Process Op Reply Reading Label Output Kind)) (kind : Kind) : Bool :=
  code.exclusive kind && processes.any fun p => decide (p.kind = kind) && !p.program.isDone

def process (label : Label) : Process Op Reply Reading Label Output Kind := ⟨code.kind label, code.body label, []⟩

def advance (s : System Shared Op Reply Reading Label Output Kind) (i : Nat) (reading : Reading) :
    System Shared Op Reply Reading Label Output Kind :=
  match s.processes[i]? with
  | none => s
  | some p =>
    match p.program with
    | .call op next =>
      { shared := (code.perform op s.shared).1
        processes := s.processes.set i { p with program := next (code.perform op s.shared).2 } }
    | .read next => { s with processes := s.processes.set i { p with program := next reading } }
    | .emit output next =>
      { s with
        processes := s.processes.set i { p with
          program := next
          outputs := p.outputs ++ [output] } }
    | .spawn label next =>
      let busy := code.isBusy s.processes (code.kind label)
      let on := s.processes.set i { p with program := next !busy }
      { s with processes := if busy then on else on ++ [code.process label] }
    | .jump label => { s with processes := s.processes.set i { p with program := code.body label } }
    | .done => s

def step (s : System Shared Op Reply Reading Label Output Kind) :
    Action Reading Label → System Shared Op Reply Reading Label Output Kind
  | .start label =>
    if code.isBusy s.processes (code.kind label) then s
    else { s with processes := s.processes ++ [code.process label] }
  | .advance i reading => code.advance s i reading

def run (s : System Shared Op Reply Reading Label Output Kind) (actions : List (Action Reading Label)) :
    System Shared Op Reply Reading Label Output Kind := actions.foldl code.step s

theorem run_append (s : System Shared Op Reply Reading Label Output Kind) (first later : List (Action Reading Label)) :
    code.run s (first ++ later) = code.run (code.run s first) later := List.foldl_append ..

end Code

/-! ### Contracts -/

structure Contract (code : Code Shared Op Reading Label Output Kind Reply) where
  invariant : Shared → Prop
  /-- What a process of a kind relies on: how the others change the shared object. -/
  rely : Kind → Shared → Shared → Prop
  /-- How a process of a kind changes the shared object. -/
  guarantee : Kind → Shared → Shared → Prop
  /-- The labels that the outside starts. -/
  starts : Label → Prop
  /-- The readings of a kind, and the calls in each state, that the schedules under consideration have. -/
  fair : Kind → Reading → Prop
  meets : Op → Shared → Prop
  pre : Label → List Output → Shared → Prop
  /-- What the outputs of a process of a kind amount to. -/
  trace : Kind → List Output → Shared → Prop
  rely_refl : ∀ kind s, rely kind s s
  rely_trans : ∀ {kind s t u}, rely kind s t → rely kind t u → rely kind s u
  /-- Different processes rely on each other's guarantees. -/
  relies : ∀ {kind other s t}, guarantee kind s t → invariant s → kind ≠ other ∨ code.exclusive kind = false →
    rely other s t
  pre_stable : ∀ {label outputs s t}, pre label outputs s → rely (code.kind label) s t → pre label outputs t
  trace_stable : ∀ {kind outputs other s t}, trace kind outputs s → invariant s → guarantee other s t →
    trace kind outputs t
  start_pre : ∀ {label s}, starts label → invariant s → pre label [] s
  start_trace : ∀ {label s}, starts label → invariant s → trace (code.kind label) [] s

namespace Contract
variable {code : Code Shared Op Reading Label Output Kind Reply} (c : Contract code)

/-- From a state with these outputs on, the program keeps the contract among processes that keep it. -/
def Safe (kind : Kind) : Program Op Reply Reading Label Output → List Output → Shared → Prop
  | .call op next, outputs, s => ∀ t, c.rely kind s t → c.invariant t → c.meets op t →
      c.invariant (code.perform op t).1 ∧ c.guarantee kind t (code.perform op t).1 ∧
        Safe kind (next (code.perform op t).2) outputs (code.perform op t).1
  | .read next, outputs, s => ∀ reading, c.fair kind reading → Safe kind (next reading) outputs s
  | .emit output next, outputs, s => ∀ t, c.rely kind s t → c.invariant t →
      c.trace kind (outputs ++ [output]) t ∧ Safe kind next (outputs ++ [output]) t
  | .spawn label next, outputs, s => ∀ t, c.rely kind s t → c.invariant t →
      c.pre label [] t ∧ c.trace (code.kind label) [] t ∧ ∀ started, Safe kind (next started) outputs t
  | .jump label, outputs, s => code.kind label = kind ∧ c.pre label outputs s
  | .done, _, _ => True

theorem Safe.stable {kind : Kind} {program : Program Op Reply Reading Label Output} {outputs : List Output}
    {s t : Shared} (safe : c.Safe kind program outputs s) (interference : c.rely kind s t) :
    c.Safe kind program outputs t := by
  induction program generalizing outputs s t with
  | call op next => exact fun u later => safe u (c.rely_trans interference later)
  | read next ih => exact fun reading fair => ih reading (safe reading fair) interference
  | emit output next => exact fun u later => safe u (c.rely_trans interference later)
  | spawn label next => exact fun u later => safe u (c.rely_trans interference later)
  | jump label =>
    obtain ⟨rfl, pre⟩ := safe
    exact ⟨rfl, c.pre_stable pre interference⟩
  | done => trivial

def Verified : Prop := ∀ label outputs s, c.pre label outputs s → c.Safe (code.kind label) (code.body label) outputs s

/-- The schedules under consideration start certain labels, and meet the conditions of reads and calls. -/
def Meets (s : System Shared Op Reply Reading Label Output Kind) : Action Reading Label → Prop
  | .start label => c.starts label
  | .advance i reading => ∀ p, s.processes[i]? = some p → c.fair p.kind reading ∧
      ∀ op next, p.program = .call op next → c.meets op s.shared

variable [DecidableEq Kind]

def AllMeet (s : System Shared Op Reply Reading Label Output Kind) : List (Action Reading Label) → Prop
  | [] => True
  | action :: rest => c.Meets s action ∧ AllMeet (code.step s action) rest

theorem allMeet_append {s : System Shared Op Reply Reading Label Output Kind}
    {first rest : List (Action Reading Label)} :
    c.AllMeet s (first ++ rest) ↔ c.AllMeet s first ∧ c.AllMeet (code.run s first) rest := by
  induction first generalizing s with
  | nil => simp [AllMeet, Code.run]
  | cons action first ih => simp [AllMeet, Code.run, ih, and_assoc]

/-- The conditions of a schedule can be checked along it. -/
instance decidableMeets [DecidablePred c.starts] [∀ kind reading, Decidable (c.fair kind reading)]
    [∀ op s, Decidable (c.meets op s)] (s : System Shared Op Reply Reading Label Output Kind) :
    (action : Action Reading Label) → Decidable (c.Meets s action)
  | .start label => inferInstanceAs (Decidable (c.starts label))
  | .advance i reading =>
    decidable_of_iff ((match s.processes[i]? with
      | some ⟨kind, .call op _, _⟩ => decide (c.fair kind reading) && decide (c.meets op s.shared)
      | some p => decide (c.fair p.kind reading)
      | none => true) = true) <| by
        constructor
        · rintro meets p found
          obtain ⟨kind, program, outputs⟩ := p
          cases program with
          | call op next =>
            simp only [found, Bool.and_eq_true, decide_eq_true_eq] at meets
            exact ⟨meets.1, fun _ _ same => by cases same; exact meets.2⟩
          | _ =>
            simp only [found, decide_eq_true_eq] at meets
            exact ⟨meets, nofun⟩
        · intro each
          split
          · rename_i found
            have ⟨fair, meets⟩ := each _ found
            simp [fair, meets _ _ rfl]
          · rename_i found
            exact decide_eq_true (each _ found).1
          · rfl

instance decidableAllMeet [DecidablePred c.starts] [∀ kind reading, Decidable (c.fair kind reading)]
    [∀ op s, Decidable (c.meets op s)] :
    (s : System Shared Op Reply Reading Label Output Kind) → (actions : List (Action Reading Label)) →
      Decidable (c.AllMeet s actions)
  | _, [] => inferInstanceAs (Decidable True)
  | s, action :: rest =>
    let _ := decidableAllMeet (code.step s action) rest
    inferInstanceAs (Decidable (c.Meets s action ∧ c.AllMeet (code.step s action) rest))

def anyReading : Contract code := { c with fair := fun _ _ => True }

instance [DecidablePred c.starts] : DecidablePred c.anyReading.starts := inferInstanceAs (DecidablePred c.starts)

instance (kind : Kind) (reading : Reading) : Decidable (c.anyReading.fair kind reading) := .isTrue trivial

instance [∀ op s, Decidable (c.meets op s)] (op : Op) (s : Shared) : Decidable (c.anyReading.meets op s) :=
  inferInstanceAs (Decidable (c.meets op s))

theorem allMeet_of_fair {s : System Shared Op Reply Reading Label Output Kind} {actions : List (Action Reading Label)}
    (fair : ∀ i reading, .advance i reading ∈ actions → ∀ kind, c.fair kind reading)
    (others : c.anyReading.AllMeet s actions) : c.AllMeet s actions := by
  induction actions generalizing s with
  | nil => trivial
  | cons action rest ih =>
    refine ⟨?_, ih (fun i reading member => fair i reading (List.mem_cons_of_mem _ member)) others.2⟩
    cases action with
    | start label => exact others.1
    | advance i reading => exact fun p found => ⟨fair i reading (List.mem_cons_self ..) p.kind, (others.1 p found).2⟩

/-! ### Runs -/

structure Holds (s : System Shared Op Reply Reading Label Output Kind) : Prop where
  invariant : c.invariant s.shared
  safe : ∀ p ∈ s.processes, c.Safe p.kind p.program p.outputs s.shared
  traces : ∀ p ∈ s.processes, c.trace p.kind p.outputs s.shared
  alone : ∀ (i j : Nat) (p q : Process Op Reply Reading Label Output Kind), i ≠ j →
    s.processes[i]? = some p → s.processes[j]? = some q → p.kind = q.kind → code.exclusive p.kind = true →
    p.program.isDone = true ∨ q.program.isDone = true

omit [DecidableEq Kind] in
theorem holds_start {shared : Shared} (invariant : c.invariant shared) : c.Holds ⟨shared, []⟩ where
  invariant := invariant
  safe := by simp
  traces := by simp
  alone := by simp

variable {c} {s : System Shared Op Reply Reading Label Output Kind} {i : Nat}
  {p q : Process Op Reply Reading Label Output Kind}

theorem Holds.set (holds : c.Holds s) (found : s.processes[i]? = some p) (going : p.program.isDone = false)
    (same : q.kind = p.kind) {t : Shared} (invariant : c.invariant t)
    (change : t = s.shared ∨ c.guarantee p.kind s.shared t) (safe : c.Safe q.kind q.program q.outputs t)
    (trace : c.trace q.kind q.outputs t) : c.Holds ⟨t, s.processes.set i q⟩ where
  invariant := invariant
  safe r member := by
    obtain ⟨j, at_⟩ := List.mem_iff_getElem?.mp member
    rw [List.getElem?_set] at at_
    split at at_
    · split at at_
      · obtain rfl := Option.some.inj at_
        exact safe
      · cases at_
    · rename_i other
      have before := holds.safe r (List.mem_iff_getElem?.mpr ⟨j, at_⟩)
      rcases change with rfl | change
      · exact before
      · by_cases shares : p.kind ≠ r.kind ∨ code.exclusive p.kind = false
        · exact before.stable _ (c.relies change holds.invariant shares)
        · -- Two processes of an exclusive kind: the other one is done.
          simp only [not_or, not_not, Bool.not_eq_false] at shares
          have done := (holds.alone i j p r other found at_ shares.1 shares.2).resolve_left (by simp [going])
          cases h : r.program <;> simp_all [Program.isDone, Safe]
  traces r member := by
    obtain ⟨j, at_⟩ := List.mem_iff_getElem?.mp member
    rw [List.getElem?_set] at at_
    split at at_
    · split at at_
      · obtain rfl := Option.some.inj at_
        exact trace
      · cases at_
    · have before := holds.traces r (List.mem_iff_getElem?.mpr ⟨j, at_⟩)
      rcases change with rfl | change
      · exact before
      · exact c.trace_stable before holds.invariant change
  alone j k r r' other at_ at' equal exclusive := by
    have origin {j : Nat} {r : Process Op Reply Reading Label Output Kind} (at_ : (s.processes.set i q)[j]? = some r) :
        ∃ r₀, s.processes[j]? = some r₀ ∧ r₀.kind = r.kind ∧ (r₀.program.isDone = true → r.program.isDone = true) := by
      rw [List.getElem?_set] at at_
      split at at_
      · rename_i here
        subst here
        split at at_
        · obtain rfl := Option.some.inj at_
          exact ⟨p, found, same.symm, fun done => by simp [going] at done⟩
        · cases at_
      · exact ⟨r, at_, rfl, id⟩
    obtain ⟨r₀, before, kind, done⟩ := origin at_
    obtain ⟨r₁, before', kind', done'⟩ := origin at'
    rw [← kind] at exclusive
    rcases holds.alone j k r₀ r₁ other before before' (by rw [kind, kind', equal]) exclusive with first | second
    · exact .inl (done first)
    · exact .inr (done' second)

theorem Holds.append (verified : c.Verified) (holds : c.Holds s) {label : Label}
    (free : code.isBusy s.processes (code.kind label) = false) (pre : c.pre label [] s.shared)
    (trace : c.trace (code.kind label) [] s.shared) :
    c.Holds { s with processes := s.processes ++ [code.process label] } := by
  have new {r : Process Op Reply Reading Label Output Kind} (member : r ∈ s.processes ++ [code.process label]) :
      r ∈ s.processes ∨ r = code.process label := by
    simpa using member
  refine ⟨holds.invariant, fun r member => ?_, fun r member => ?_, fun j k r r' other at_ at' same exclusive => ?_⟩
  · rcases new member with old | rfl
    · exact holds.safe r old
    · exact verified label [] _ pre
  · rcases new member with old | rfl
    · exact holds.traces r old
    · exact trace
  · have idle {r : Process Op Reply Reading Label Output Kind} (member : r ∈ s.processes)
        (kind : r.kind = code.kind label) (exclusive : code.exclusive r.kind = true) : r.program.isDone = true := by
      by_contra going
      have busy : code.isBusy s.processes (code.kind label) = true := by
        simp only [Code.isBusy, Bool.and_eq_true, List.any_eq_true, decide_eq_true_eq, Bool.not_eq_true']
        exact ⟨kind ▸ exclusive, r, member, kind, by simpa using going⟩
      exact Bool.false_ne_true (free.symm.trans busy)
    have last {j : Nat} {r : Process Op Reply Reading Label Output Kind}
        (at_ : [code.process label][j - s.processes.length]? = some r) : r = code.process label := by
      obtain ⟨inside, same⟩ := List.getElem?_eq_some_iff.mp at_
      simpa using same.symm
    rw [List.getElem?_append] at at_ at'
    split at at_ <;> split at at'
    · exact holds.alone j k r r' other at_ at' same exclusive
    · obtain rfl := last at'
      exact .inl (idle (List.mem_iff_getElem?.mpr ⟨j, at_⟩) same exclusive)
    · obtain rfl := last at_
      exact .inr (idle (List.mem_iff_getElem?.mpr ⟨k, at'⟩) same.symm (same ▸ exclusive))
    · have first := (List.getElem?_eq_some_iff.mp at_).1
      have second := (List.getElem?_eq_some_iff.mp at').1
      simp only [List.length_singleton] at first second
      omega

theorem isBusy_set (found : s.processes[i]? = some p) (going : p.program.isDone = false) (same : q.kind = p.kind)
    {kind : Kind} (free : code.isBusy s.processes kind = false) : code.isBusy (s.processes.set i q) kind = false := by
  rw [Code.isBusy, Bool.and_eq_false_imp] at free ⊢
  intro exclusive
  have each := List.any_eq_false.mp (free exclusive)
  refine List.any_eq_false.mpr fun r member => ?_
  rcases List.mem_or_eq_of_mem_set member with old | rfl
  · exact each r old
  · have before := each p (List.mem_iff_getElem?.mpr ⟨i, found⟩)
    rw [same]
    simp only [going, Bool.not_false, Bool.and_true] at before
    simp [before]

/-- A step keeps the invariant, and what it writes is guaranteed by its kind. -/
theorem Holds.step (verified : c.Verified) (holds : c.Holds s) {action : Action Reading Label}
    (meets : c.Meets s action) :
    c.Holds (code.step s action) ∧
      ((code.step s action).shared = s.shared ∨ ∃ kind, c.guarantee kind s.shared (code.step s action).shared) := by
  cases action with
  | start label =>
    unfold Code.step
    simp only
    split
    · exact ⟨holds, .inl rfl⟩
    · rename_i free
      exact ⟨holds.append verified (by simpa using free) (c.start_pre meets holds.invariant)
        (c.start_trace meets holds.invariant), .inl rfl⟩
  | advance i reading =>
    unfold Code.step Code.advance
    simp only
    split
    · exact ⟨holds, .inl rfl⟩
    · rename_i p found
      obtain ⟨fair, calls⟩ := meets p found
      have member := List.mem_iff_getElem?.mpr ⟨i, found⟩
      have safe := holds.safe p member
      have trace := holds.traces p member
      split
      · rename_i op next program
        rw [program] at safe
        obtain ⟨invariant, change, later⟩ :=
          safe _ (c.rely_refl ..) holds.invariant (calls op next program)
        exact ⟨holds.set (q := { p with program := next _ }) found (by rw [program]; rfl) rfl invariant (.inr change)
          later (c.trace_stable trace holds.invariant change), .inr ⟨_, change⟩⟩
      · rename_i next program
        rw [program] at safe
        exact ⟨holds.set (q := { p with program := next reading }) found (by rw [program]; rfl) rfl holds.invariant
          (.inl rfl) (safe reading fair) trace, .inl rfl⟩
      · rename_i output next program
        rw [program] at safe
        obtain ⟨more, later⟩ := safe _ (c.rely_refl ..) holds.invariant
        exact ⟨holds.set (q := ⟨p.kind, next, p.outputs ++ [output]⟩) found (by rw [program]; rfl) rfl holds.invariant
          (.inl rfl) later more, .inl rfl⟩
      · rename_i label next program
        rw [program] at safe
        obtain ⟨pre, started, later⟩ := safe _ (c.rely_refl ..) holds.invariant
        have on (started : Bool) := holds.set (q := { p with program := next started }) found (by rw [program]; rfl) rfl
          holds.invariant (.inl rfl) (later started) trace
        dsimp only
        split
        · exact ⟨on _, .inl rfl⟩
        · rename_i free
          rw [Bool.not_eq_true] at free
          have still (started : Bool) := isBusy_set (q := { p with program := next started }) found
            (by rw [program]; rfl) rfl free
          exact ⟨(on _).append verified (still _) pre started, .inl rfl⟩
      · rename_i label program
        rw [program] at safe
        obtain ⟨kind, pre⟩ := safe
        have body := verified label p.outputs _ pre
        rw [kind] at body
        exact ⟨holds.set (q := { p with program := code.body label }) found (by rw [program]; rfl) rfl holds.invariant
          (.inl rfl) body trace, .inl rfl⟩
      · exact ⟨holds, .inl rfl⟩

/-- Along a schedule that meets the conditions, the contract holds and every change is guaranteed. -/
theorem Holds.run (verified : c.Verified) (holds : c.Holds s) {actions : List (Action Reading Label)}
    (meets : c.AllMeet s actions) :
    c.Holds (code.run s actions) ∧
      Relation.ReflTransGen (fun u t => c.invariant u ∧ ∃ kind, c.guarantee kind u t) s.shared
        (code.run s actions).shared := by
  induction actions generalizing s with
  | nil => exact ⟨holds, .refl⟩
  | cons action rest ih =>
    obtain ⟨next, change⟩ := holds.step verified meets.1
    obtain ⟨last, changes⟩ := ih next meets.2
    refine ⟨last, ?_⟩
    rcases change with same | guaranteed
    · rwa [same] at changes
    · exact changes.head ⟨holds.invariant, guaranteed⟩

end Contract

end Concurrent

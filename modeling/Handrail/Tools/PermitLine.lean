import Handrail.Tools.ConcurrencyLimiter

/-!
# The limiter as a line of callers

When every caller acquires once, with a signal of its own, the limiter is a line: the first `maximum` of its callers have
the permits and the others wait. Of a group of callers those that have a permit would have it without the others too.
-/

namespace Handrail.Tools

/-- The callers in the order in which they came, and the signals that were aborted. -/
structure PermitLine (Caller : Type) where
  maximum : Nat
  callers : List Caller
  aborted : List Caller

inductive LineMove where
  | enter
  | leave
  | fire

namespace PermitLine
variable {Caller : Type} [DecidableEq Caller] {line : PermitLine Caller} {caller : Caller} {keep : Caller → Bool}

def holds (line : PermitLine Caller) (caller : Caller) : Bool := decide (caller ∈ line.callers.take line.maximum)

def step (line : PermitLine Caller) (caller : Caller) : LineMove → PermitLine Caller
  | .enter =>
    if caller ∈ line.aborted ∨ caller ∈ line.callers then line else { line with callers := line.callers ++ [caller] }
  | .leave => if line.holds caller then { line with callers := line.callers.erase caller } else line
  -- A caller that has its permit stays.
  | .fire =>
    ⟨line.maximum, if line.holds caller then line.callers else line.callers.erase caller, caller :: line.aborted⟩

structure Orderly (line : PermitLine Caller) : Prop where
  apart : line.callers.Nodup
  live : ∀ caller ∈ line.callers.drop line.maximum, caller ∉ line.aborted

theorem Orderly.late (orderly : line.Orderly) (late : caller ∈ line.callers.drop line.maximum) : line.holds caller = false := by
  rw [holds, decide_eq_false_iff_not]
  intro early
  have split := orderly.apart
  rw [← List.take_append_drop line.maximum line.callers] at split
  exact (List.nodup_append.mp split).2.2 caller early caller late rfl

theorem Orderly.step (orderly : line.Orderly) (caller : Caller) (move : LineMove) : (line.step caller move).Orderly := by
  have erased : ((line.callers.erase caller).drop line.maximum).Sublist (line.callers.drop line.maximum) :=
    List.erase_sublist.drop line.maximum
  cases move with
  | enter =>
    dsimp only [PermitLine.step]
    split
    · exact orderly
    · rename_i enters
      rw [not_or] at enters
      refine ⟨List.nodup_append.mpr ⟨orderly.apart, List.nodup_singleton caller, ?_⟩, fun other late => ?_⟩
      · intro first inside last here same
        exact enters.2 (List.mem_singleton.mp here ▸ same ▸ inside)
      · rw [List.drop_append] at late
        rcases List.mem_append.mp late with old | new
        · exact orderly.live other old
        · rw [List.mem_singleton.mp (List.mem_of_mem_drop new)]
          exact enters.1
  | leave =>
    dsimp only [PermitLine.step]
    split
    · exact ⟨orderly.apart.erase caller, fun other late => orderly.live other (erased.subset late)⟩
    · exact orderly
  | fire =>
    dsimp only [PermitLine.step]
    split
    · rename_i holds
      refine ⟨orderly.apart, fun other late => ?_⟩
      rw [List.mem_cons, not_or]
      refine ⟨?_, orderly.live other late⟩
      rintro rfl
      rw [orderly.late late] at holds
      cases holds
    · refine ⟨orderly.apart.erase caller, fun other late => ?_⟩
      rw [List.mem_cons, not_or]
      refine ⟨?_, orderly.live other (erased.subset late)⟩
      rintro rfl
      exact orderly.apart.not_mem_erase (List.mem_of_mem_drop late)

/-! ### Without the other callers -/

def among (line : PermitLine Caller) (keep : Caller → Bool) : PermitLine Caller :=
  ⟨line.maximum, line.callers.filter keep, line.aborted.filter keep⟩

/-- The caller does not wait, or those of its group that came before it keep it waiting without the others. -/
def waitsAnyway (line : PermitLine Caller) (keep : Caller → Bool) (caller : Caller) : Bool :=
  line.holds caller || decide (caller ∉ line.callers) ||
    decide (line.maximum ≤ ((line.callers.takeWhile (· ≠ caller)).filter keep).length)

omit [DecidableEq Caller] in
theorem take_filter (callers : List Caller) (n : Nat) : (callers.take n).filter keep <+: (callers.filter keep).take n := by
  induction callers generalizing n with
  | nil => simp
  | cons first rest ih =>
    cases n with
    | zero => simp
    | succ n =>
      by_cases kept : keep first = true
      · simpa [kept] using ih n
      · rw [List.take_succ_cons, List.filter_cons_of_neg kept, List.filter_cons_of_neg kept]
        exact (ih n).trans (List.take_prefix_take_left (Nat.le_succ n))

theorem takeWhile_filter (callers : List Caller) (kept : keep caller = true) :
    (callers.filter keep).takeWhile (· ≠ caller) = (callers.takeWhile (· ≠ caller)).filter keep := by
  induction callers with
  | nil => rfl
  | cons first rest ih =>
    by_cases same : first = caller
    · simp [same, kept]
    · by_cases inside : keep first = true
      · simpa [same, inside] using ih
      · simpa [same, inside] using ih

theorem notMem_take {callers : List Caller} {n : Nat} (late : n ≤ (callers.takeWhile (· ≠ caller)).length) :
    caller ∉ callers.take n := by
  intro inside
  have early : callers.take n <+: callers.takeWhile (· ≠ caller) :=
    List.prefix_of_prefix_length_le (List.take_prefix n callers) (List.takeWhile_prefix _)
      (Nat.le_trans (List.length_take_le n callers) late)
  simpa using List.all_eq_true.mp List.all_takeWhile caller (early.subset inside)

theorem holds_among (kept : keep caller = true) (anyway : line.waitsAnyway keep caller = true) :
    (line.among keep).holds caller = line.holds caller := by
  cases has : line.holds caller with
  | true =>
    rw [holds, decide_eq_true_eq] at has ⊢
    exact (take_filter line.callers line.maximum).subset (List.mem_filter.mpr ⟨has, kept⟩)
  | false =>
    rw [waitsAnyway, has, Bool.false_or, Bool.or_eq_true, decide_eq_true_eq, decide_eq_true_eq] at anyway
    rw [holds, decide_eq_false_iff_not]
    rcases anyway with absent | late
    · exact fun inside => absent (List.mem_filter.mp (List.mem_of_mem_take inside)).1
    · rw [← takeWhile_filter _ kept] at late
      exact notMem_take late

/-- A hidden caller is not seen to move. -/
theorem step_hidden (hidden : keep caller = false) (move : LineMove) : (line.step caller move).among keep = line.among keep := by
  have left : (line.callers.erase caller).filter keep = line.callers.filter keep := by
    rw [← List.erase_filter, List.erase_of_not_mem]
    simp [hidden]
  cases move with
  | enter =>
    dsimp only [step]
    split
    · rfl
    · simp [among, hidden]
  | leave =>
    dsimp only [step]
    split
    · simp [among, left]
    · rfl
  | fire =>
    dsimp only [step]
    split <;> simp [among, hidden, left]

/-- A caller of the group moves as without the others. -/
theorem step_among (kept : keep caller = true) (anyway : line.waitsAnyway keep caller = true) (move : LineMove) :
    (line.step caller move).among keep = (line.among keep).step caller move := by
  have left : (line.callers.erase caller).filter keep = (line.callers.filter keep).erase caller := List.erase_filter.symm
  cases move with
  | enter =>
    dsimp only [step]
    by_cases stays : caller ∈ line.aborted ∨ caller ∈ line.callers
    · rw [if_pos stays, if_pos (by simpa [among, kept] using stays)]
    · rw [if_neg stays, if_neg (by simpa [among, kept] using stays)]
      simp [among, kept]
  | leave =>
    dsimp only [step]
    rw [holds_among kept anyway]
    split
    · simp [among, left]
    · rfl
  | fire =>
    dsimp only [step]
    rw [holds_among kept anyway]
    split <;> simp [among, kept, left]

end PermitLine

/-! ### The limiter -/

namespace ConcurrencyLimiter
variable {Signal : Type} [DecidableEq Signal] {s : ConcurrencyLimiter Signal} {waiter : Waiter Signal} {signal : Signal}

def callers (s : ConcurrencyLimiter Signal) : List Signal := (s.held ++ s.waiters).map Waiter.signal

def line (s : ConcurrencyLimiter Signal) : PermitLine Signal := ⟨s.maximum, s.callers, s.aborted⟩

def permit? (s : ConcurrencyLimiter Signal) (signal : Signal) : Option (Waiter Signal) :=
  s.held.find? fun waiter => waiter.signal = signal

/-- What the caller with the signal does, which acquires once. An abort reaches its listener at once. -/
def drive (s : ConcurrencyLimiter Signal) (signal : Signal) : LineMove → ConcurrencyLimiter Signal
  | .enter => if signal ∈ s.callers then s else s.step (.acquire signal)
  | .leave => (s.permit? signal).elim s fun waiter => s.step (.release waiter)
  | .fire =>
    let fired := s.step (.abort signal)
    (s.waiters.find? fun waiter => waiter.signal = signal).elim fired fun waiter => fired.step (.listener waiter)

structure Orderly (s : ConcurrencyLimiter Signal) : Prop where
  sound : s.Sound
  busy : s.Busy
  line : s.line.Orderly

theorem start_orderly (maximum : Nat) : (start maximum : ConcurrencyLimiter Signal).Orderly :=
  ⟨start_sound maximum, fun waiting => (waiting rfl).elim, ⟨List.nodup_nil, by simp [line, callers, held, granted, start]⟩⟩

theorem Orderly.split (orderly : s.Orderly) :
    s.callers.take s.maximum = s.held.map Waiter.signal ∧ s.callers.drop s.maximum = s.waiters.map Waiter.signal := by
  have counted := orderly.sound.counted
  rw [callers, List.map_append]
  by_cases empty : s.waiters = []
  · have bounded := orderly.sound.bounded
    have short : (s.held.map Waiter.signal).length ≤ s.maximum := by rw [List.length_map]; omega
    rw [empty, List.map_nil, List.append_nil]
    exact ⟨List.take_of_length_le short, List.drop_of_length_le short⟩
  · have full : (s.held.map Waiter.signal).length = s.maximum := by
      rw [List.length_map, ← counted]
      exact orderly.busy empty
    exact ⟨List.take_left' full, List.drop_left' full⟩

theorem Orderly.holds (orderly : s.Orderly) : s.line.holds signal = (s.permit? signal).isSome := by
  show decide (signal ∈ s.callers.take s.maximum) = _
  rw [orderly.split.1, Bool.eq_iff_iff]
  simp [permit?]

theorem erase_signal {waiters : List (Waiter Signal)} (apart : (waiters.map Waiter.signal).Nodup) (inside : waiter ∈ waiters) :
    (waiters.erase waiter).map Waiter.signal = (waiters.map Waiter.signal).erase waiter.signal := by
  induction waiters with
  | nil => cases inside
  | cons first rest ih =>
    by_cases same : first = waiter
    · simp [same]
    · have member : waiter ∈ rest := (List.mem_cons.mp inside).resolve_left (Ne.symm same)
      rw [List.map_cons, List.nodup_cons] at apart
      have other : first.signal ≠ waiter.signal := fun equal => apart.1 (equal ▸ List.mem_map_of_mem member)
      rw [List.erase_cons_tail (by simpa using same), List.map_cons, List.map_cons, ih apart.2 member,
        List.erase_cons_tail (by simpa using other)]

theorem acquire_line (orderly : s.Orderly) (fresh : signal ∉ s.callers) :
    (s.acquire signal).line = s.line.step signal .enter := by
  unfold acquire
  by_cases aborted : signal ∈ s.aborted
  · rw [if_pos aborted, PermitLine.step, if_pos (.inl aborted)]
    simp only [line, callers, held, granted_settle_cancelled]
    rfl
  have enters : s.line.step signal .enter = { s.line with callers := s.callers ++ [signal] } := by
    apply if_neg
    rintro (dead | inside)
    · exact aborted dead
    · exact fresh inside
  rw [if_neg aborted, enters]
  by_cases free : s.active < s.maximum
  · have empty : s.waiters = [] := by
      by_contra waiting
      have := orderly.busy waiting
      omega
    have unreleased : (⟨s.arrivals, signal⟩ : Waiter Signal) ∉ s.released := by
      intro member
      exact Nat.lt_irrefl _ (orderly.sound.arrived (.inl (orderly.sound.spent _ member)))
    have held : ({ s with arrivals := s.arrivals + 1 }.grant ⟨s.arrivals, signal⟩).held = s.held ++ [⟨s.arrivals, signal⟩] :=
      held_grant unreleased
    have callers : ({ s with arrivals := s.arrivals + 1 }.grant ⟨s.arrivals, signal⟩).callers = s.callers ++ [signal] := by
      rw [callers, callers, held]
      simp [grant, settle, empty]
    rw [if_pos free, line, callers]
    rfl
  · rw [if_neg free]
    simp [line, callers, held, granted]

theorem release_line (orderly : s.Orderly) (holds : waiter ∈ s.held) :
    (s.release waiter).line = { s.line with callers := s.callers.erase waiter.signal } := by
  obtain ⟨granted, unreleased⟩ := List.mem_filter.mp holds
  have first : waiter ∈ s.granted ∧ waiter ∉ s.released := ⟨granted, by simpa using unreleased⟩
  have leaves := startNext_leaves { s with released := s.released ++ [waiter], active := s.active - 1 } s.waiters
  have places : (s.release waiter).held ++ (s.release waiter).waiters = s.held.erase waiter ++ s.waiters := by
    cases queue : s.waiters with
    | nil =>
      have released : s.release waiter = { s with released := s.released ++ [waiter], active := s.active - 1 } := by
        rw [release, if_pos first, queue, startNext]
      rw [released]
      show s.granted.filter (· ∉ s.released ++ [waiter]) ++ s.waiters = _
      rw [orderly.sound.held_release, queue]
    | cons next rest =>
      have queued : next ∈ s.waiters := queue ▸ List.mem_cons_self
      have live : next.signal ∉ s.aborted := orderly.line.live _ (orderly.split.2 ▸ List.mem_map_of_mem queued)
      obtain ⟨settled, others⟩ := release_wakes orderly.sound orderly.busy first.1 first.2
        (show s.waiters = [] ++ next :: rest from queue) (by simp) live
      have later : next ∉ s.granted := fun earlier =>
        Nat.lt_irrefl _ ((List.pairwise_append.mp orderly.sound.ordered).2.2 next earlier next queued)
      have fresh : next ∉ s.released ++ [waiter] := by
        intro member
        rcases List.mem_append.mp member with spent | same
        · exact later (orderly.sound.spent next spent)
        · exact later (List.mem_singleton.mp same ▸ first.1)
      have permits : (s.release waiter).granted = s.granted ++ [next] := by
        rw [ConcurrencyLimiter.granted, settled]
        simp [ConcurrencyLimiter.granted, Settlement.permit?]
      have released : (s.release waiter).released = s.released ++ [waiter] := by
        rw [release, if_pos first]
        exact leaves.2.2.1
      rw [held, permits, released, List.filter_append, orderly.sound.held_release, others,
        List.filter_cons_of_pos (by simpa using fresh), List.filter_nil, List.append_assoc, List.singleton_append]
  have callers : (s.release waiter).callers = s.callers.erase waiter.signal := by
    rw [callers, places, callers, ← erase_signal orderly.line.apart (List.mem_append_left _ holds),
      List.erase_append_left _ holds]
  rw [line, callers, release, if_pos first, leaves.1, leaves.2.1]
  rfl

theorem fire_line (orderly : s.Orderly) (signal : Signal) : (s.drive signal .fire).line = s.line.step signal .fire := by
  unfold drive PermitLine.step
  rw [orderly.holds]
  cases found : s.waiters.find? fun waiter => waiter.signal = signal with
  | none =>
    have stays : (if (s.permit? signal).isSome then s.callers else s.callers.erase signal) = s.callers := by
      split
      · rfl
      · rename_i without
        refine List.erase_of_not_mem fun inside => ?_
        obtain ⟨waiter, member, same⟩ := List.mem_map.mp inside
        rcases List.mem_append.mp member with holder | queued
        · exact without (List.find?_isSome.mpr ⟨waiter, holder, by simpa using same⟩)
        · simpa [same] using List.find?_eq_none.mp found waiter queued
    exact congrArg (PermitLine.mk s.maximum · (signal :: s.aborted)) stays.symm
  | some waiter =>
    have queued : waiter ∈ s.waiters := List.mem_of_find?_eq_some found
    obtain rfl : waiter.signal = signal := by simpa using List.find?_some found
    have late : (s.permit? waiter.signal).isSome = false := by
      rw [← orderly.holds]
      exact orderly.line.late (orderly.split.2 ▸ List.mem_map_of_mem queued)
    have apart : waiter ∉ s.held := by
      intro holder
      have permit : (s.permit? waiter.signal).isSome = true := List.find?_isSome.mpr ⟨waiter, holder, by simp⟩
      rw [late] at permit
      cases permit
    have fires : waiter ∈ s.listeners ∧ waiter.signal ∈ waiter.signal :: s.aborted :=
      ⟨orderly.sound.listening ▸ queued, List.mem_cons_self⟩
    have leaves : s.callers.erase waiter.signal = (s.held ++ s.waiters.erase waiter).map Waiter.signal := by
      rw [callers, ← erase_signal orderly.line.apart (List.mem_append_right _ queued), List.erase_append_right _ apart]
    rw [late]
    show (onAbort { s with aborted := waiter.signal :: s.aborted } waiter).line =
      ⟨s.maximum, s.callers.erase waiter.signal, waiter.signal :: s.aborted⟩
    rw [onAbort, if_pos fires, leaves]
    simp only [line, callers, held, granted_settle_cancelled]
    rfl

/-- The limiter moves as the line of its callers. -/
theorem Orderly.drive (orderly : s.Orderly) (signal : Signal) (move : LineMove) :
    (s.drive signal move).Orderly ∧ (s.drive signal move).line = s.line.step signal move := by
  have line : (s.drive signal move).line = s.line.step signal move := by
    cases move with
    | enter =>
      by_cases inside : signal ∈ s.callers
      · rw [ConcurrencyLimiter.drive, if_pos inside, PermitLine.step, if_pos (.inr inside)]
      · rw [ConcurrencyLimiter.drive, if_neg inside]
        exact acquire_line orderly inside
    | leave =>
      dsimp only [ConcurrencyLimiter.drive, PermitLine.step]
      rw [orderly.holds]
      cases found : s.permit? signal with
      | none => rfl
      | some waiter =>
        obtain rfl : waiter.signal = signal := by simpa using List.find?_some found
        exact release_line orderly (List.mem_of_find?_eq_some found)
    | fire => exact fire_line orderly signal
  have sound : (s.drive signal move).Sound ∧ (s.drive signal move).Busy := by
    cases move with
    | enter =>
      dsimp only [ConcurrencyLimiter.drive]
      split
      · exact ⟨orderly.sound, orderly.busy⟩
      · exact sound_step orderly.sound orderly.busy _
    | leave =>
      dsimp only [ConcurrencyLimiter.drive]
      cases s.permit? signal with
      | none => exact ⟨orderly.sound, orderly.busy⟩
      | some waiter => exact sound_step orderly.sound orderly.busy (.release waiter)
    | fire =>
      obtain ⟨fired, busy⟩ := sound_step orderly.sound orderly.busy (.abort signal)
      dsimp only [ConcurrencyLimiter.drive]
      cases s.waiters.find? fun waiter => waiter.signal = signal with
      | none => exact ⟨fired, busy⟩
      | some waiter => exact sound_step fired busy (.listener waiter)
  exact ⟨⟨sound.1, sound.2, line ▸ orderly.line.step signal move⟩, line⟩

end ConcurrencyLimiter
end Handrail.Tools

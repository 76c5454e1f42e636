import Mathlib.Data.List.Nodup
import Mathlib.Data.List.Perm.Basic

/-!
# The limiter of concurrent tool executions

`ConcurrencyLimiter` grants at most `maximum` permits at a time. A caller that finds none free waits in a queue, which a
release and the `abort` listener of the waiting caller's signal both change.
-/

namespace Handrail.Tools

/-- The promise of one `acquire`, by the order of the calls. -/
structure Waiter (Signal : Type) where
  ticket : Nat
  signal : Signal
  deriving DecidableEq

/-- `resolve` with a release function or `reject` with `ExecutionCancelled`. -/
inductive Settlement (Signal : Type) where
  | granted (waiter : Waiter Signal)
  | cancelled (waiter : Waiter Signal)

/-- `waiters`, `active` and `maximum` are the limiter's. The signals that were aborted, the `abort` listeners on them, the
release functions that were called and the settlements in their order are what the calls leave outside of it. -/
structure ConcurrencyLimiter (Signal : Type) where
  maximum : Nat
  waiters : List (Waiter Signal)
  active : Nat
  arrivals : Nat
  aborted : List Signal
  listeners : List (Waiter Signal)
  released : List (Waiter Signal)
  settled : List (Settlement Signal)

inductive LimiterEvent (Signal : Type) where
  | acquire (signal : Signal)
  /-- A call of the release function that the waiter was granted. -/
  | release (waiter : Waiter Signal)
  | abort (signal : Signal)
  /-- The dispatch of `abort` reaches the listener of the waiter. -/
  | listener (waiter : Waiter Signal)

def LimiterEvent.isAcquire {Signal : Type} : LimiterEvent Signal → Bool
  | .acquire _ => true
  | _ => false

namespace Settlement
variable {Signal : Type}

def waiter : Settlement Signal → Waiter Signal
  | granted waiter => waiter
  | cancelled waiter => waiter

def permit? : Settlement Signal → Option (Waiter Signal)
  | granted waiter => some waiter
  | cancelled _ => none

end Settlement

namespace ConcurrencyLimiter
variable {Signal : Type} {s : ConcurrencyLimiter Signal} {waiter : Waiter Signal} {signal : Signal}

def start (maximum : Nat) : ConcurrencyLimiter Signal := ⟨maximum, [], 0, 0, [], [], [], []⟩

def granted (s : ConcurrencyLimiter Signal) : List (Waiter Signal) := s.settled.filterMap Settlement.permit?

def settle (s : ConcurrencyLimiter Signal) (outcome : Settlement Signal) : ConcurrencyLimiter Signal :=
  { s with settled := s.settled ++ [outcome] }

/-- `#active += 1` and a release function of its own. -/
def grant (s : ConcurrencyLimiter Signal) (waiter : Waiter Signal) : ConcurrencyLimiter Signal :=
  { s with active := s.active + 1 }.settle (.granted waiter)

variable [DecidableEq Signal]

def held (s : ConcurrencyLimiter Signal) : List (Waiter Signal) := s.granted.filter (· ∉ s.released)

def acquire (s : ConcurrencyLimiter Signal) (signal : Signal) : ConcurrencyLimiter Signal :=
  let waiter := ⟨s.arrivals, signal⟩
  let s := { s with arrivals := s.arrivals + 1 }
  if signal ∈ s.aborted then s.settle (.cancelled waiter)
  else if s.active < s.maximum then s.grant waiter
  else { s with listeners := s.listeners ++ [waiter], waiters := s.waiters ++ [waiter] }

/-- `#waiters.shift()` and `removeEventListener`. -/
def shift (s : ConcurrencyLimiter Signal) (waiter : Waiter Signal) : ConcurrencyLimiter Signal :=
  { s with waiters := s.waiters.tail, listeners := s.listeners.erase waiter }

/-- `#startNext`, over the queue as it stands. -/
def startNext (s : ConcurrencyLimiter Signal) : List (Waiter Signal) → ConcurrencyLimiter Signal
  | [] => s
  | waiter :: rest =>
    if s.active < s.maximum then
      if waiter.signal ∈ s.aborted then startNext ((s.shift waiter).settle (.cancelled waiter)) rest
      else startNext ((s.shift waiter).grant waiter) rest
    else s

def release (s : ConcurrencyLimiter Signal) (waiter : Waiter Signal) : ConcurrencyLimiter Signal :=
  if waiter ∈ s.granted ∧ waiter ∉ s.released then
    { s with released := s.released ++ [waiter], active := s.active - 1 }.startNext s.waiters
  else s

/-- The waiter's `onAbort`, registered once. -/
def onAbort (s : ConcurrencyLimiter Signal) (waiter : Waiter Signal) : ConcurrencyLimiter Signal :=
  if waiter ∈ s.listeners ∧ waiter.signal ∈ s.aborted then
    { s with listeners := s.listeners.erase waiter, waiters := s.waiters.erase waiter }.settle (.cancelled waiter)
  else s

def step (s : ConcurrencyLimiter Signal) : LimiterEvent Signal → ConcurrencyLimiter Signal
  | .acquire signal => s.acquire signal
  | .release waiter => s.release waiter
  | .abort signal => { s with aborted := signal :: s.aborted }
  | .listener waiter => s.onAbort waiter

def run (s : ConcurrencyLimiter Signal) (events : List (LimiterEvent Signal)) : ConcurrencyLimiter Signal :=
  events.foldl step s

/-! ### What every operation keeps -/

/-- `busy` is left out: between `#active -= 1` and the end of `#startNext` a permit is free. -/
structure Sound (s : ConcurrencyLimiter Signal) : Prop where
  counted : s.active = s.held.length
  bounded : s.active ≤ s.maximum
  ordered : (s.granted ++ s.waiters).Pairwise fun first second => first.ticket < second.ticket
  accounted : ((s.settled.map Settlement.waiter ++ s.waiters).map Waiter.ticket).Perm (List.range s.arrivals)
  listening : s.listeners = s.waiters
  spent : ∀ waiter ∈ s.released, waiter ∈ s.granted
  spared : ∀ waiter, .cancelled waiter ∈ s.settled → waiter.signal ∈ s.aborted

def Busy (s : ConcurrencyLimiter Signal) : Prop := s.waiters ≠ [] → s.active = s.maximum

omit [DecidableEq Signal] in
theorem granted_settle_cancelled : (s.settle (.cancelled waiter)).granted = s.granted := by
  simp [granted, settle, Settlement.permit?]

omit [DecidableEq Signal] in
theorem granted_grant : (s.grant waiter).granted = s.granted ++ [waiter] := by
  simp [granted, grant, settle, Settlement.permit?]

theorem held_grant (unreleased : waiter ∉ s.released) : (s.grant waiter).held = s.held ++ [waiter] := by
  have same : (s.grant waiter).released = s.released := rfl
  rw [held, held, granted_grant, same, List.filter_append]
  simp [unreleased]

omit [DecidableEq Signal] in
theorem mem_granted : waiter ∈ s.granted ↔ .granted waiter ∈ s.settled := by
  simp only [granted, List.mem_filterMap]
  constructor
  · rintro ⟨outcome, member, read⟩
    cases outcome with
    | granted other => cases read; exact member
    | cancelled _ => cases read
  · intro member
    exact ⟨_, member, rfl⟩

theorem Sound.arrived (sound : s.Sound) (member : waiter ∈ s.granted ∨ waiter ∈ s.waiters) :
    waiter.ticket < s.arrivals := by
  have listed : waiter.ticket ∈ (s.settled.map Settlement.waiter ++ s.waiters).map Waiter.ticket := by
    rw [List.map_append, List.mem_append]
    rcases member with settled | queued
    · exact .inl (List.mem_map_of_mem (List.mem_map_of_mem (f := Settlement.waiter) (mem_granted.mp settled)))
    · exact .inr (List.mem_map_of_mem queued)
  exact List.mem_range.mp (sound.accounted.mem_iff.mp listed)

theorem start_sound (maximum : Nat) : (start maximum : ConcurrencyLimiter Signal).Sound where
  counted := rfl
  bounded := Nat.zero_le _
  ordered := .nil
  accounted := .nil
  listening := rfl
  spent := by rintro _ ⟨⟩
  spared := by rintro _ ⟨⟩

theorem Sound.cancel (sound : s.Sound) (queued : waiter ∈ s.waiters) (aborted : waiter.signal ∈ s.aborted) :
    ({ s with listeners := s.listeners.erase waiter, waiters := s.waiters.erase waiter }.settle
      (.cancelled waiter)).Sound where
  counted := by
    simp only [held, granted_settle_cancelled]
    exact sound.counted
  bounded := sound.bounded
  ordered := by
    rw [granted_settle_cancelled]
    exact sound.ordered.sublist ((List.Sublist.refl _).append List.erase_sublist)
  accounted := by
    refine List.Perm.trans (List.Perm.map _ ?_) sound.accounted
    simp only [settle, List.map_append, List.map_cons, List.map_nil, List.append_assoc, Settlement.waiter]
    exact List.Perm.append_left _ (List.perm_cons_erase queued).symm
  listening := by
    simp only [settle, sound.listening]
  spent := by
    rw [granted_settle_cancelled]
    exact sound.spent
  spared := by
    intro other member
    rcases List.mem_append.mp member with earlier | last
    · exact sound.spared other earlier
    · cases List.mem_singleton.mp last
      exact aborted

theorem Sound.grant_first {rest : List (Waiter Signal)} (sound : s.Sound) (queue : s.waiters = waiter :: rest)
    (free : s.active < s.maximum) : ((s.shift waiter).grant waiter).Sound where
  counted := by
    have later : waiter ∉ s.granted := by
      intro member
      have first := (List.pairwise_append.mp sound.ordered).2.2 waiter member waiter (by rw [queue]; exact List.mem_cons_self)
      exact Nat.lt_irrefl _ first
    have unreleased : waiter ∉ s.released := fun member => later (sound.spent waiter member)
    have last : ((s.shift waiter).grant waiter).held = s.held ++ [waiter] := held_grant unreleased
    rw [last, List.length_append, ← sound.counted]
    rfl
  bounded := free
  ordered := by
    rw [granted_grant]
    have same : ((s.shift waiter).granted ++ [waiter]) ++ ((s.shift waiter).grant waiter).waiters
        = s.granted ++ s.waiters := by
      simp [shift, grant, settle, granted, queue]
    rw [same]
    exact sound.ordered
  accounted := by
    refine List.Perm.trans (List.Perm.map _ ?_) sound.accounted
    simp [shift, grant, settle, queue, Settlement.waiter]
  listening := by
    simp [shift, grant, settle, sound.listening, queue]
  spent := by
    intro other member
    rw [granted_grant]
    exact List.mem_append_left _ (sound.spent other member)
  spared := by
    intro other member
    rcases List.mem_append.mp member with earlier | last
    · exact sound.spared other earlier
    · cases List.mem_singleton.mp last

theorem sound_startNext {waiters : List (Waiter Signal)} (sound : s.Sound) (queue : s.waiters = waiters) :
    (s.startNext waiters).Sound ∧ (s.startNext waiters).Busy := by
  induction waiters generalizing s with
  | nil => exact ⟨sound, fun waiting => (waiting queue).elim⟩
  | cons waiter rest ih =>
    have tail : (s.shift waiter).waiters = rest := by simp [shift, queue]
    rw [startNext]
    by_cases free : s.active < s.maximum
    · rw [if_pos free]
      by_cases aborted : waiter.signal ∈ s.aborted
      · rw [if_pos aborted]
        have first : waiter ∈ s.waiters := by rw [queue]; exact List.mem_cons_self
        have shifted : s.shift waiter
            = { s with listeners := s.listeners.erase waiter, waiters := s.waiters.erase waiter } := by
          simp [shift, queue]
        rw [shifted] at tail ⊢
        exact ih (sound.cancel first aborted) tail
      · rw [if_neg aborted]
        exact ih (sound.grant_first queue free) tail
    · rw [if_neg free]
      exact ⟨sound, fun _ => by have := sound.bounded; omega⟩

theorem Sound.arrives (sound : s.Sound) (busy : s.Busy) (signal : Signal) :
    (s.acquire signal).Sound ∧ (s.acquire signal).Busy := by
  obtain ⟨counted, bounded, ordered, accounted, listening, spent, spared⟩ := sound
  have fresh (w : Waiter Signal) (member : w ∈ s.granted ++ s.waiters) : w.ticket < s.arrivals :=
    Sound.arrived ⟨counted, bounded, ordered, accounted, listening, spent, spared⟩ (List.mem_append.mp member)
  have counts (outcome : Settlement Signal) (this : outcome.waiter = ⟨s.arrivals, signal⟩) :
      (((s.settled ++ [outcome]).map Settlement.waiter ++ s.waiters).map Waiter.ticket).Perm
        (List.range (s.arrivals + 1)) := by
    rw [List.range_succ]
    refine List.Perm.trans ?_ (accounted.append_right [s.arrivals])
    simp only [List.map_append, List.map_cons, List.map_nil, this, List.append_assoc]
    exact List.Perm.append_left _ List.perm_append_comm
  unfold acquire
  by_cases aborted : signal ∈ s.aborted
  · rw [if_pos aborted]
    refine ⟨⟨?_, bounded, ?_, counts (.cancelled _) rfl, listening, ?_, ?_⟩, busy⟩
    · simp only [held, granted_settle_cancelled]
      exact counted
    · rw [granted_settle_cancelled]
      exact ordered
    · rw [granted_settle_cancelled]
      exact spent
    · intro other member
      rcases List.mem_append.mp member with earlier | last
      · exact spared other earlier
      · cases List.mem_singleton.mp last
        exact aborted
  rw [if_neg aborted]
  by_cases free : s.active < s.maximum
  · rw [if_pos free]
    have empty : s.waiters = [] := by
      by_contra waiting
      have := busy waiting
      omega
    have unreleased : (⟨s.arrivals, signal⟩ : Waiter Signal) ∉ s.released := by
      intro member
      exact Nat.lt_irrefl _ (fresh _ (List.mem_append_left _ (spent _ member)))
    refine ⟨⟨?_, free, ?_, counts (.granted _) rfl, listening, ?_, ?_⟩, fun waiting => (waiting empty).elim⟩
    · have last : ({ s with arrivals := s.arrivals + 1 }.grant ⟨s.arrivals, signal⟩).held
          = s.held ++ [⟨s.arrivals, signal⟩] := held_grant unreleased
      rw [last, List.length_append, ← counted]
      rfl
    · rw [granted_grant]
      have unchanged : ({ s with arrivals := s.arrivals + 1 }.grant ⟨s.arrivals, signal⟩).waiters = [] := empty
      rw [unchanged, List.append_nil]
      rw [empty, List.append_nil] at ordered
      refine List.pairwise_append.mpr ⟨ordered, List.pairwise_singleton _ _, fun first member last same => ?_⟩
      cases List.mem_singleton.mp same
      exact fresh first (List.mem_append_left _ member)
    · intro other member
      rw [granted_grant]
      exact List.mem_append_left _ (spent other member)
    · intro other member
      rcases List.mem_append.mp member with earlier | last
      · exact spared other earlier
      · cases List.mem_singleton.mp last
  · rw [if_neg free]
    refine ⟨⟨counted, bounded, ?_, ?_, ?_, spent, spared⟩, fun _ => by show s.active = s.maximum; omega⟩
    · show (s.granted ++ (s.waiters ++ [_])).Pairwise _
      rw [← List.append_assoc]
      refine List.pairwise_append.mpr ⟨ordered, List.pairwise_singleton _ _, fun first member last same => ?_⟩
      cases List.mem_singleton.mp same
      exact fresh first member
    · show (List.map _ (_ ++ (s.waiters ++ [_]))).Perm (List.range (s.arrivals + 1))
      rw [← List.append_assoc, List.map_append, List.range_succ]
      exact accounted.append_right _
    · show s.listeners ++ _ = s.waiters ++ _
      rw [listening]

theorem Sound.held_release (sound : s.Sound) (waiter : Waiter Signal) :
    s.granted.filter (· ∉ s.released ++ [waiter]) = s.held.erase waiter := by
  have distinct : s.held.Nodup := by
    have pairs := (List.pairwise_append.mp sound.ordered).1
    refine List.Nodup.filter _ (pairs.imp fun less same => ?_)
    rw [same] at less
    exact Nat.lt_irrefl _ less
  rw [distinct.erase_eq_filter, held, List.filter_filter]
  refine List.filter_congr fun other _ => ?_
  rw [Bool.eq_iff_iff]
  simp [and_comm]

theorem Sound.gives_back (sound : s.Sound) (granted : waiter ∈ s.granted) (unreleased : waiter ∉ s.released) :
    { s with released := s.released ++ [waiter], active := s.active - 1 }.Sound ∧ 0 < s.active := by
  have holds : waiter ∈ s.held := List.mem_filter.mpr ⟨granted, by simpa using unreleased⟩
  have others : { s with released := s.released ++ [waiter], active := s.active - 1 }.held = s.held.erase waiter :=
    sound.held_release waiter
  have positive : 0 < s.active := by
    rw [sound.counted]
    exact List.length_pos_of_mem holds
  refine ⟨⟨?_, Nat.le_trans (Nat.sub_le _ _) sound.bounded, sound.ordered, sound.accounted, sound.listening, ?_,
    sound.spared⟩, positive⟩
  · rw [others, List.length_erase_of_mem holds, ← sound.counted]
  · intro other member
    rcases List.mem_append.mp member with earlier | last
    · exact sound.spent other earlier
    · cases List.mem_singleton.mp last
      exact granted

theorem sound_step (sound : s.Sound) (busy : s.Busy) (event : LimiterEvent Signal) :
    (s.step event).Sound ∧ (s.step event).Busy := by
  cases event with
  | acquire signal => exact sound.arrives busy signal
  | release waiter =>
    rw [step, release]
    by_cases first : waiter ∈ s.granted ∧ waiter ∉ s.released
    · rw [if_pos first]
      exact sound_startNext (sound.gives_back first.1 first.2).1 rfl
    · rw [if_neg first]
      exact ⟨sound, busy⟩
  | abort signal =>
    refine ⟨⟨sound.counted, sound.bounded, sound.ordered, sound.accounted, sound.listening, sound.spent, ?_⟩, busy⟩
    intro waiter member
    exact List.mem_cons_of_mem _ (sound.spared waiter member)
  | listener waiter =>
    rw [step, onAbort]
    by_cases fires : waiter ∈ s.listeners ∧ waiter.signal ∈ s.aborted
    · rw [if_pos fires]
      refine ⟨sound.cancel (sound.listening ▸ fires.1) fires.2, fun waiting => busy fun empty => waiting ?_⟩
      show s.waiters.erase waiter = []
      rw [empty]
      rfl
    · rw [if_neg fires]
      exact ⟨sound, busy⟩

theorem sound_run (sound : s.Sound) (busy : s.Busy) (events : List (LimiterEvent Signal)) :
    (s.run events).Sound ∧ (s.run events).Busy := by
  induction events generalizing s with
  | nil => exact ⟨sound, busy⟩
  | cons event rest ih =>
    obtain ⟨sound, busy⟩ := sound_step sound busy event
    exact ih sound busy

/-! ### Grants in the order of arrival -/

theorem granted_startNext {waiters : List (Waiter Signal)} (member : waiter ∈ (s.startNext waiters).granted) :
    waiter ∈ s.granted ∨ waiter.signal ∉ s.aborted := by
  induction waiters generalizing s with
  | nil => exact .inl member
  | cons first rest ih =>
    rw [startNext] at member
    by_cases free : s.active < s.maximum
    · rw [if_pos free] at member
      by_cases aborted : first.signal ∈ s.aborted
      · rw [if_pos aborted] at member
        have earlier := ih member
        rw [granted_settle_cancelled] at earlier
        exact earlier
      · rw [if_neg aborted] at member
        rcases ih member with earlier | live
        · rw [granted_grant] at earlier
          rcases List.mem_append.mp earlier with earlier | last
          · exact .inl earlier
          · cases List.mem_singleton.mp last
            exact .inr aborted
        · exact .inr live
    · rw [if_neg free] at member
      exact .inl member

theorem granted_step {event : LimiterEvent Signal} (member : waiter ∈ (s.step event).granted) :
    waiter ∈ s.granted ∨ waiter.signal ∉ s.aborted := by
  cases event with
  | acquire signal =>
    rw [step, acquire] at member
    by_cases aborted : signal ∈ s.aborted
    · rw [if_pos aborted, granted_settle_cancelled] at member
      exact .inl member
    rw [if_neg aborted] at member
    by_cases free : s.active < s.maximum
    · rw [if_pos free, granted_grant] at member
      rcases List.mem_append.mp member with earlier | last
      · exact .inl earlier
      · cases List.mem_singleton.mp last
        exact .inr aborted
    · rw [if_neg free] at member
      exact .inl member
  | release other =>
    rw [step, release] at member
    by_cases first : other ∈ s.granted ∧ other ∉ s.released
    · rw [if_pos first] at member
      exact granted_startNext (s := { s with released := s.released ++ [other], active := s.active - 1 }) member
    · rw [if_neg first] at member
      exact .inl member
  | abort signal => exact .inl member
  | listener other =>
    rw [step, onAbort] at member
    by_cases fires : other ∈ s.listeners ∧ other.signal ∈ s.aborted
    · rw [if_pos fires, granted_settle_cancelled] at member
      exact .inl member
    · rw [if_neg fires] at member
      exact .inl member

theorem startNext_leaves (s : ConcurrencyLimiter Signal) (waiters : List (Waiter Signal)) :
    (s.startNext waiters).aborted = s.aborted ∧ (s.startNext waiters).maximum = s.maximum ∧
      (s.startNext waiters).released = s.released ∧ (s.startNext waiters).arrivals = s.arrivals := by
  induction waiters generalizing s with
  | nil => exact ⟨rfl, rfl, rfl, rfl⟩
  | cons first rest ih =>
    rw [startNext]
    split
    · split
      · exact ih _
      · exact ih _
    · exact ⟨rfl, rfl, rfl, rfl⟩

theorem aborted_step (event : LimiterEvent Signal) (aborted : signal ∈ s.aborted) : signal ∈ (s.step event).aborted := by
  cases event with
  | acquire other =>
    rw [step, acquire]
    split
    · exact aborted
    · split
      · exact aborted
      · exact aborted
  | release waiter =>
    rw [step, release]
    split
    · rw [(startNext_leaves _ _).1]
      exact aborted
    · exact aborted
  | abort other => exact List.mem_cons_of_mem _ aborted
  | listener waiter =>
    rw [step, onAbort]
    split
    · exact aborted
    · exact aborted

theorem granted_run {events : List (LimiterEvent Signal)} (member : waiter ∈ (s.run events).granted)
    (aborted : waiter.signal ∈ s.aborted) : waiter ∈ s.granted := by
  induction events generalizing s with
  | nil => exact member
  | cons event rest ih =>
    rcases granted_step (ih member (aborted_step event aborted)) with earlier | live
    · exact earlier
    · exact (live aborted).elim

theorem Sound.overtakes (sound : s.Sound) {later : Waiter Signal} (granted : later ∈ s.granted) {ticket : Nat}
    (earlier : ticket < later.ticket) :
    (∃ waiter ∈ s.granted, waiter.ticket = ticket) ∨
      ∃ waiter, .cancelled waiter ∈ s.settled ∧ waiter.ticket = ticket ∧ waiter.signal ∈ s.aborted := by
  have arrived : ticket ∈ List.range s.arrivals :=
    List.mem_range.mpr (Nat.lt_trans earlier (sound.arrived (.inl granted)))
  obtain ⟨waiter, place, rfl⟩ := List.mem_map.mp (sound.accounted.mem_iff.mpr arrived)
  rcases List.mem_append.mp place with settled | queued
  · obtain ⟨outcome, member, rfl⟩ := List.mem_map.mp settled
    cases outcome with
    | granted waiter => exact .inl ⟨waiter, mem_granted.mpr member, rfl⟩
    | cancelled waiter => exact .inr ⟨waiter, member, rfl, sound.spared waiter member⟩
  · have behind := (List.pairwise_append.mp sound.ordered).2.2 later granted waiter queued
    exact absurd behind (Nat.lt_asymm earlier)

theorem Sound.once (sound : s.Sound) : ((s.settled.map Settlement.waiter).map Waiter.ticket).Nodup := by
  have distinct := sound.accounted.nodup_iff.mpr List.nodup_range
  rw [List.map_append] at distinct
  exact (List.nodup_append.mp distinct).1

/-! ### Wake-ups -/

/-- With one free permit the waiters before the first live one are rejected and that one is granted. -/
theorem startNext_wakes {dead rest : List (Waiter Signal)} (queue : s.waiters = dead ++ waiter :: rest)
    (aborted : ∀ other ∈ dead, other.signal ∈ s.aborted) (live : waiter.signal ∉ s.aborted)
    (free : s.active + 1 = s.maximum) :
    (s.startNext s.waiters).settled = s.settled ++ dead.map .cancelled ++ [.granted waiter] ∧
      (s.startNext s.waiters).waiters = rest := by
  rw [queue]
  induction dead generalizing s with
  | nil =>
    have full : ¬((s.shift waiter).grant waiter).active < ((s.shift waiter).grant waiter).maximum := by
      show ¬s.active + 1 < s.maximum
      omega
    have stops : ((s.shift waiter).grant waiter).startNext rest = (s.shift waiter).grant waiter := by
      cases rest with
      | nil => rfl
      | cons _ _ => rw [startNext, if_neg full]
    rw [List.nil_append, startNext, if_pos (by omega), if_neg live, stops]
    exact ⟨by simp [grant, settle, shift], by simp [grant, settle, shift, queue]⟩
  | cons other dead ih =>
    rw [List.cons_append, startNext, if_pos (by omega), if_pos (aborted other List.mem_cons_self)]
    obtain ⟨settled, waiters⟩ := ih (s := (s.shift other).settle (.cancelled other))
      (by simp [settle, shift, queue]) (fun w member => aborted w (List.mem_cons_of_mem _ member)) live free
    refine ⟨?_, waiters⟩
    rw [settled]
    simp [settle, shift]

theorem release_wakes {dead rest : List (Waiter Signal)} {holder : Waiter Signal} (sound : s.Sound) (busy : s.Busy)
    (granted : holder ∈ s.granted) (unreleased : holder ∉ s.released) (queue : s.waiters = dead ++ waiter :: rest)
    (aborted : ∀ other ∈ dead, other.signal ∈ s.aborted) (live : waiter.signal ∉ s.aborted) :
    (s.release holder).settled = s.settled ++ dead.map .cancelled ++ [.granted waiter] ∧
      (s.release holder).waiters = rest := by
  rw [release, if_pos ⟨granted, unreleased⟩]
  have positive := (sound.gives_back granted unreleased).2
  have full := busy (by simp [queue])
  refine startNext_wakes (s := { s with released := s.released ++ [holder], active := s.active - 1 }) queue aborted live ?_
  show s.active - 1 + 1 = s.maximum
  omega

/-! ### Fair and exact -/

/-- `active` counts the permits, nobody waits for a free one, and nobody is lost, settled twice or overtaken. -/
structure Fair (s : ConcurrencyLimiter Signal) : Prop where
  counted : s.active = s.held.length
  bounded : s.active ≤ s.maximum
  busy : s.waiters ≠ [] → s.active = s.maximum
  ordered : s.granted.Pairwise fun first second => first.ticket < second.ticket
  overtakes : ∀ later ∈ s.granted, ∀ ticket < later.ticket, (∃ waiter ∈ s.granted, waiter.ticket = ticket) ∨
    ∃ waiter, .cancelled waiter ∈ s.settled ∧ waiter.ticket = ticket ∧ waiter.signal ∈ s.aborted
  once : ((s.settled.map Settlement.waiter).map Waiter.ticket).Nodup
  kept : ∀ ticket < s.arrivals, ticket ∈ (s.settled.map Settlement.waiter).map Waiter.ticket ∨
    ticket ∈ s.waiters.map Waiter.ticket
  apart : ∀ waiter ∈ s.waiters, waiter ∉ s.granted
  cancels : ∀ waiter ∈ s.waiters, waiter.signal ∈ s.aborted →
    (s.step (.listener waiter)).settled = s.settled ++ [.cancelled waiter]
  wakes : ∀ holder ∈ s.held, ∀ waiter dead rest, s.waiters = dead ++ waiter :: rest →
    (∀ other ∈ dead, other.signal ∈ s.aborted) → waiter.signal ∉ s.aborted →
      (s.step (.release holder)).settled = s.settled ++ dead.map .cancelled ++ [.granted waiter] ∧
        (s.step (.release holder)).waiters = rest

theorem Sound.fair (sound : s.Sound) (busy : s.Busy) : s.Fair where
  counted := sound.counted
  bounded := sound.bounded
  busy := busy
  ordered := (List.pairwise_append.mp sound.ordered).1
  overtakes := fun _ granted _ earlier => sound.overtakes granted earlier
  once := sound.once
  kept := by
    intro ticket arrived
    have listed := sound.accounted.mem_iff.mpr (List.mem_range.mpr arrived)
    rw [List.map_append] at listed
    exact List.mem_append.mp listed
  apart := by
    intro waiter queued granted
    exact Nat.lt_irrefl _ ((List.pairwise_append.mp sound.ordered).2.2 waiter granted waiter queued)
  cancels := by
    intro waiter queued aborted
    rw [step, onAbort, if_pos ⟨sound.listening ▸ queued, aborted⟩]
    rfl
  wakes := by
    intro holder holds waiter dead rest queue aborted live
    obtain ⟨granted, unreleased⟩ := List.mem_filter.mp holds
    exact release_wakes sound busy granted (by simpa using unreleased) queue aborted live

theorem maximum_step (event : LimiterEvent Signal) : (s.step event).maximum = s.maximum := by
  cases event with
  | acquire signal =>
    rw [step, acquire]
    split
    · rfl
    · split <;> rfl
  | release waiter =>
    rw [step, release]
    split
    · exact (startNext_leaves _ _).2.1
    · rfl
  | abort signal => rfl
  | listener waiter =>
    rw [step, onAbort]
    split <;> rfl

theorem maximum_run (events : List (LimiterEvent Signal)) : (s.run events).maximum = s.maximum := by
  induction events generalizing s with
  | nil => rfl
  | cons event rest ih => exact ih.trans (maximum_step event)

theorem arrivals_step (event : LimiterEvent Signal) :
    (s.step event).arrivals = s.arrivals + if event.isAcquire then 1 else 0 := by
  cases event with
  | acquire signal =>
    rw [step, acquire]
    split
    · rfl
    · split <;> rfl
  | release waiter =>
    rw [step, release]
    split
    · exact (startNext_leaves _ _).2.2.2
    · rfl
  | abort signal => rfl
  | listener waiter =>
    rw [step, onAbort]
    split <;> rfl

/-- Every call of `acquire` has a ticket. -/
theorem arrivals_run (events : List (LimiterEvent Signal)) :
    (s.run events).arrivals = s.arrivals + events.countP LimiterEvent.isAcquire := by
  induction events generalizing s with
  | nil => rfl
  | cons event rest ih =>
    have later : (s.run (event :: rest)).arrivals = _ := ih (s := s.step event)
    rw [later, arrivals_step, List.countP_cons]
    omega

/-- In every order of acquisitions, releases and aborts. -/
theorem limiter_fair (maximum : Nat) (events : List (LimiterEvent Signal)) :
    let s := (start maximum).run events
    s.Fair ∧ s.maximum = maximum ∧ s.arrivals = events.countP LimiterEvent.isAcquire ∧
      ∀ waiter : Waiter Signal, waiter ∉ s.granted → waiter.signal ∈ s.aborted →
        ∀ later, waiter ∉ (s.run later).granted := by
  intro s
  obtain ⟨sound, busy⟩ := sound_run (start_sound maximum) (fun waiting => (waiting rfl).elim) events
  have arrivals : s.arrivals = events.countP LimiterEvent.isAcquire := (arrivals_run events).trans (Nat.zero_add _)
  refine ⟨sound.fair busy, maximum_run events, arrivals, fun waiter ungranted aborted later granted => ?_⟩
  exact ungranted (granted_run granted aborted)

/-- The second waiter's signal is aborted while it waits, so the first release wakes the third. -/
example : ((start 1).run [.acquire 0, .acquire 1, .acquire 2, .abort 1, .release ⟨0, 0⟩, .release ⟨0, 0⟩,
    .listener ⟨1, 1⟩] : ConcurrencyLimiter Nat).granted = [⟨0, 0⟩, ⟨2, 2⟩] := by decide

end ConcurrencyLimiter
end Handrail.Tools

import Handrail.Realtime.AuthorityInvariant

/-!
# Hangups and cleanups happen once and can be tried again

A hangup or a cleanup that has failed is tried again from the first step that has not succeeded. An attempt that fails before
its promise is entered in the table stays there.
-/

namespace Handrail.Realtime
open Js Concurrent Protocol

namespace SessionAuthority

/-! ### What is promised -/

structure Safe (a : SessionAuthority) : Prop where
  oneEnd : ∀ (i j : Nat) (o p : HangupAttempt), a.hangupAttempts[i]? = some o → a.hangupAttempts[j]? = some p →
    o.phase = .ending →
    p.phase = .ending → o.request.sessionId = p.request.sessionId → i = j
  oneCleanup : ∀ (i j : Nat) (o p : CleanupAttempt), a.cleanupAttempts[i]? = some o →
    a.cleanupAttempts[j]? = some p → o.phase = .cleaning →
    p.phase = .cleaning → o.request.sessionId = p.request.sessionId → i = j
  once : Everywhere invokedOnce a.log
  /-- A hangup that is not refused uses its key for its session. -/
  used : ∀ request, (a.hangup request).2 ≠ .rejected (.operation .idempotencyConflict) →
    (a.hangup request).1.idempotencySessions request.idempotencyKey = some request.sessionId
  /-- When every attempt has failed, a new request starts one. -/
  hangupAgain : ∀ request, a.isAborted request.signal = false →
    (∀ other, a.idempotencySessions request.idempotencyKey = some other → other = request.sessionId) →
    (∀ o ∈ a.hangupAttempts, o.request.sessionId = request.sessionId → ∃ error, o.phase = .settled (.error error)) →
    (a.hangup request).2 = .started a.hangupAttempts.length
  cleanupAgain : ∀ request, a.isAborted request.signal = false →
    (∀ o ∈ a.cleanupAttempts, o.request.sessionId = request.sessionId → ∃ error, o.phase = .settled (.error error)) →
    (a.cleanup request).2 = .started a.cleanupAttempts.length
  /-- A hangup whose tool calls are terminated ends the session, unless it was ended before. -/
  resumesEnd : ∀ (i : Nat) (o : HangupAttempt), a.hangupAttempts[i]? = some o → o.phase = .terminating → a.isCalling = false →
    .endSucceeded o.request.sessionId ∉ a.log →
    (a.step (.hangupTerminated i)).log =
      a.log ++ [.toolsTerminated i, .endInvoked i o.request.sessionId] ∧
    (a.step (.hangupTerminated i)).hangupAttempts[i]? = some ⟨o.request, .ending⟩
  /-- A hangup of a session that was ended goes on to the cleanup. -/
  resumesCleanup : ∀ (i : Nat) (o : HangupAttempt), a.hangupAttempts[i]? = some o → o.phase = .terminating → a.isCalling = false →
    .endSucceeded o.request.sessionId ∈ a.log →
    (a.step (.hangupTerminated i)).log = a.log ++ [.toolsTerminated i] ∧
    (a.step (.hangupTerminated i)).hangupAttempts[i]? =
      some ⟨o.request, .cleaning (a.cleanup ⟨o.request.sessionId, o.request.signal⟩).2⟩
  /-- A session that was cleaned is not cleaned again. -/
  cleanedOnce : ∀ request, .cleanupSucceeded request.sessionId ∈ a.log → (a.cleanup request) = (a, .cleaned)

structure Kept (a b : SessionAuthority) : Prop where
  /-- Every hangup after one that has resolved is answered its result. -/
  result : ∀ o ∈ a.hangupAttempts, ∀ result, o.phase = .settled (.ok result) →
    ∀ request : RealtimeVoiceHangupRequest, request.sessionId = o.request.sessionId →
    (∀ other, b.idempotencySessions request.idempotencyKey = some other → other = request.sessionId) →
    (b.hangup request).2 = .resolved result
  /-- A key that was used for one session is refused for any other. -/
  keys : ∀ request : RealtimeVoiceHangupRequest, ∀ used, a.idempotencySessions request.idempotencyKey = some used →
    used ≠ request.sessionId → b.hangup request = (b, .rejected (.operation .idempotencyConflict))

/-- No call of `terminateSession` throws, and none asks for what it is part of. -/
def regular (a : SessionAuthority) : AuthorityAction → Bool
  | .hangup request =>
    a.hangupAttempts.all fun o => !(decide (o.request.sessionId = request.sessionId) && decide (o.phase.stage = .entering))
  | .cleanup request =>
    a.cleanupAttempts.all fun o => !(decide (o.request.sessionId = request.sessionId) && decide (o.phase.stage = .entering))
  | .hangupThrew _ _ => false
  | .cleanupThrew _ _ => false
  | _ => true

/-- Every action of a run is `regular` in its state. -/
def AllRegular : SessionAuthority → List AuthorityAction → Prop
  | _, [] => True
  | a, action :: rest => a.regular action = true ∧ AllRegular (a.step action) rest

def About (sessions : List JsString) (actions : List AuthorityAction) : Prop :=
  ∀ request, .hangup request ∈ actions → request.sessionId ∈ sessions

variable {sessions : List JsString} {a b : SessionAuthority}

/-! ### Steps -/

theorem settled_of_not_calling (quiet : a.isCalling = false) (sessionId : JsString) :
    a.cleanupSlots.Settled sessionId := by
  intro i entering
  obtain ⟨o, held, same⟩ := Option.map_eq_some_iff.mp ((List.getElem?_map ..).symm.trans entering)
  obtain ⟨-, stage⟩ := Prod.mk.inj same
  have calling : a.isCalling = true := by
    unfold isCalling
    rw [Bool.or_eq_true]
    exact .inr (List.any_eq_true.mpr ⟨o, List.mem_of_getElem? held, by simp [stage]⟩)
  rw [calling] at quiet
  cases quiet

theorem settled_of_all {sessionId : JsString} (none : a.cleanupAttempts.all (fun o =>
      !(decide (o.request.sessionId = sessionId) && decide (o.phase.stage = .entering))) = true) :
    a.cleanupSlots.Settled sessionId := by
  intro i entering
  obtain ⟨o, held, same⟩ := Option.map_eq_some_iff.mp ((List.getElem?_map ..).symm.trans entering)
  obtain ⟨session, stage⟩ := Prod.mk.inj same
  have free := List.all_eq_true.mp none o (List.mem_of_getElem? held)
  simp [session, stage] at free

theorem settledHangups_of_all {sessionId : JsString} (none : a.hangupAttempts.all (fun o =>
      !(decide (o.request.sessionId = sessionId) && decide (o.phase.stage = .entering))) = true) :
    a.hangupSlots.Settled sessionId := by
  intro i entering
  obtain ⟨o, held, same⟩ := Option.map_eq_some_iff.mp ((List.getElem?_map ..).symm.trans entering)
  obtain ⟨session, stage⟩ := Prod.mk.inj same
  have free := List.all_eq_true.mp none o (List.mem_of_getElem? held)
  simp [session, stage] at free

theorem cleanup_cases (a : SessionAuthority) (request : RealtimeVoiceCleanupRequest) :
    (a.cleanup request).1 = a ∨ a.cleaned request.sessionId = false ∧ a.cleanups request.sessionId = none ∧
      (a.cleanup request).1 = { a with cleanupAttempts := a.cleanupAttempts ++ [⟨request, .entered⟩] } := by
  unfold cleanup
  by_cases clean : a.cleaned request.sessionId = true
  · rw [if_pos clean]
    exact .inl rfl
  · rw [if_neg clean]
    cases held : a.cleanups request.sessionId with
    | some attempt => exact .inl rfl
    | none =>
      by_cases aborted : a.isAborted request.signal = true
      · dsimp only
        rw [if_pos aborted]
        exact .inl rfl
      · dsimp only
        rw [if_neg aborted]
        exact .inr ⟨Bool.eq_false_iff.mpr clean, rfl, rfl⟩

theorem consistent_cleanup (consistent : Consistent sessions a) {request : RealtimeVoiceCleanupRequest}
    (settled : a.cleanupSlots.Settled request.sessionId) : Consistent sessions (a.cleanup request).1 := by
  rcases cleanup_cases a request with same | ⟨uncleaned, absent, pushed⟩
  · rw [same]
    exact consistent
  · rw [pushed]
    exact consistent_pushCleanup consistent uncleaned (consistent.cleanups.free absent settled)

variable {o : HangupAttempt}

theorem consistent_awaitCleanup (consistent : Consistent sessions a) {i : Nat}
    (found : a.hangupAttempts[i]? = some o) (stored : o.phase.stage = .stored)
    (settled : a.cleanupSlots.Settled o.request.sessionId) : Consistent sessions (a.awaitCleanup i o.request) := by
  have after : Consistent sessions (a.cleanup ⟨o.request.sessionId, o.request.signal⟩).1 :=
    consistent_cleanup consistent settled
  have same : (a.cleanup ⟨o.request.sessionId, o.request.signal⟩).1.hangupAttempts = a.hangupAttempts := by
    rcases cleanup_cases a ⟨o.request.sessionId, o.request.signal⟩ with same | ⟨-, -, pushed⟩
    · rw [same]
    · rw [pushed]
  exact consistent_moveHangup after (by rw [same]; exact found) stored rfl

theorem consistent_keys (consistent : Consistent sessions a) (keys : JsString → Option JsString) :
    Consistent sessions { a with idempotencySessions := keys } :=
  consistent.hangupsOnly ⟨rfl, rfl, rfl, rfl, rfl, rfl⟩ consistent.hangups consistent.finished consistent.free
    consistent.settled consistent.about

theorem consistent_hangup (consistent : Consistent sessions a) {request : RealtimeVoiceHangupRequest}
    (about : request.sessionId ∈ sessions) (settled : a.hangupSlots.Settled request.sessionId) :
    Consistent sessions (a.hangup request).1 := by
  unfold hangup
  split
  · exact consistent
  · have used := consistent_keys consistent
      (Function.update a.idempotencySessions request.idempotencyKey (some request.sessionId))
    simp only
    cases ended : a.terminal.get request.sessionId with
    | some result => exact used
    | none =>
      simp only
      cases held : a.hangups request.sessionId with
      | some attempt => exact used
      | none =>
        simp only
        split
        · exact used
        · exact consistent_pushHangup used about ended (consistent.hangups.free held settled)

theorem consistent_stepHangup (consistent : Consistent sessions a) (quiet : a.isCalling = false) {i : Nat}
    (found : a.hangupAttempts[i]? = some o) (stored : o.phase.stage = .stored)
    (action : AuthorityAction) : Consistent sessions (a.stepHangup i o.request o.phase action) := by
  have settled : a.cleanupSlots.Settled o.request.sessionId := settled_of_not_calling quiet _
  have failed := consistent_failHangup consistent found stored
  cases phase : o.phase with
  | entered =>
    rw [phase] at stored
    cases stored
  | terminating =>
    cases action with
    | hangupTerminated _ =>
      have terminated : Consistent sessions (a.record (.toolsTerminated i)) :=
        consistent_record consistent trivial (fun _ same => by cases same) (fun _ same => by cases same)
      simp only [stepHangup]
      by_cases ended : a.ended o.request.sessionId = true
      · rw [if_pos (show (a.record _).ended _ = true from ended)]
        exact consistent_awaitCleanup terminated found stored settled
      · rw [if_neg (show ¬(a.record _).ended _ = true from ended)]
        have rule : invokedOnce (a.record (.toolsTerminated i)).log (.endInvoked i o.request.sessionId) := by
          refine ⟨List.mem_append_right _ (List.mem_singleton_self _), fun succeeded => ended ?_⟩
          rw [consistent.ended]
          simpa [record] using succeeded
        have invoked := consistent_record terminated rule (fun _ same => by cases same) (fun _ same => by cases same)
        exact consistent_moveHangup invoked found stored (show HangupPhase.ending.stage = .stored from rfl)
    | hangupFailed _ error => exact failed error
    | _ => exact consistent
  | ending =>
    cases action with
    | endSucceeded _ =>
      exact consistent_awaitCleanup (consistent_endSucceeded consistent o.request.sessionId) found stored settled
    | hangupFailed _ error => exact failed error
    | _ => exact consistent
  | cleaning reply =>
    cases action with
    | hangupResumed _ reading =>
      simp only [stepHangup]
      split
      · exact consistent
      · exact failed _
      · exact consistent_finishHangup consistent found stored reading
    | _ => exact consistent
  | settled result =>
    rw [phase] at stored
    cases stored

theorem consistent_stepCleanup (consistent : Consistent sessions a) {i : Nat} {o : CleanupAttempt}
    (found : a.cleanupAttempts[i]? = some o) (stored : o.phase.stage = .stored) (action : AuthorityAction) :
    Consistent sessions (a.stepCleanup i o.request o.phase action) := by
  have failed := consistent_failCleanup consistent found stored
  cases phase : o.phase with
  | entered =>
    rw [phase] at stored
    cases stored
  | terminating =>
    cases action with
    | cleanupTerminated _ =>
      have rule : invokedOnce a.log (.cleanupInvoked o.request.sessionId) := by
        intro succeeded
        have clean := (consistent.cleaned _).mpr succeeded
        rw [consistent.uncleaned o (List.mem_of_getElem? found) (by rw [stored]; decide)] at clean
        cases clean
      have invoked := consistent_record consistent rule (fun _ same => by cases same) (fun _ same => by cases same)
      exact consistent_moveCleanup invoked found stored (show CleanupPhase.cleaning.stage = .stored from rfl)
    | cleanupFailed _ error => exact failed error
    | _ => exact consistent
  | cleaning =>
    cases action with
    | cleanupSucceeded _ => exact consistent_finishCleanup consistent found stored
    | cleanupFailed _ error => exact failed error
    | _ => exact consistent
  | settled result =>
    rw [phase] at stored
    cases stored

theorem consistent_advanceHangup (consistent : Consistent sessions a) (quiet : a.isCalling = false) (i : Nat)
    {action : AuthorityAction} (waits : ∀ request, a.stepHangup i request .entered action = a) :
    Consistent sessions (a.advanceHangup i action) := by
  unfold advanceHangup
  split
  · rename_i o found
    cases phase : o.phase with
    | entered =>
      rw [waits]
      exact consistent
    | settled result =>
      have same : a.stepHangup i o.request (.settled result) action = a := by cases action <;> rfl
      rw [same]
      exact consistent
    | _ =>
      rw [← phase]
      exact consistent_stepHangup consistent quiet found (by rw [phase]; rfl) action
  · exact consistent

theorem consistent_advanceCleanup (consistent : Consistent sessions a) (i : Nat)
    {action : AuthorityAction} (waits : ∀ request, a.stepCleanup i request .entered action = a) :
    Consistent sessions (a.advanceCleanup i action) := by
  unfold advanceCleanup
  split
  · rename_i o found
    cases phase : o.phase with
    | entered =>
      rw [waits]
      exact consistent
    | settled result =>
      have same : a.stepCleanup i o.request (.settled result) action = a := by cases action <;> rfl
      rw [same]
      exact consistent
    | _ =>
      rw [← phase]
      exact consistent_stepCleanup consistent found (by rw [phase]; rfl) action
  · exact consistent

theorem consistent_step (consistent : Consistent sessions a) {action : AuthorityAction} (regular : a.regular action = true)
    (about : About sessions [action]) : Consistent sessions (a.step action) := by
  have reaction (b : SessionAuthority) (advanced : a.isCalling = false → Consistent sessions b) :
      Consistent sessions (if a.isCalling then a else b) := by
    by_cases calling : a.isCalling = true
    · rw [if_pos calling]
      exact consistent
    · rw [if_neg calling]
      exact advanced (Bool.eq_false_iff.mpr calling)
  cases action with
  | hangup request =>
    exact consistent_hangup consistent (about request (List.mem_singleton_self _)) (settledHangups_of_all regular)
  | cleanup request => exact consistent_cleanup consistent (settled_of_all regular)
  | abort signal =>
    exact consistent.hangupsOnly ⟨rfl, rfl, rfl, rfl, rfl, rfl⟩ consistent.hangups consistent.finished consistent.free
      consistent.settled consistent.about
  | hangupReturned i =>
    simp only [step, advanceHangup]
    split
    · rename_i o found
      cases phase : o.phase with
      | entered => exact consistent_enterHangup consistent found (by rw [phase]; rfl)
      | _ => exact consistent
    · exact consistent
  | cleanupReturned i =>
    simp only [step, advanceCleanup]
    split
    · rename_i o found
      cases phase : o.phase with
      | entered => exact consistent_enterCleanup consistent found (by rw [phase]; rfl)
      | _ => exact consistent
    · exact consistent
  | hangupThrew i error => cases regular
  | cleanupThrew i error => cases regular
  | hangupTerminated i => exact reaction _ fun quiet => consistent_advanceHangup consistent quiet i fun _ => rfl
  | endSucceeded i => exact reaction _ fun quiet => consistent_advanceHangup consistent quiet i fun _ => rfl
  | hangupFailed i error => exact reaction _ fun quiet => consistent_advanceHangup consistent quiet i fun _ => rfl
  | hangupResumed i reading => exact reaction _ fun quiet => consistent_advanceHangup consistent quiet i fun _ => rfl
  | cleanupTerminated i => exact reaction _ fun _ => consistent_advanceCleanup consistent i fun _ => rfl
  | cleanupSucceeded i => exact reaction _ fun _ => consistent_advanceCleanup consistent i fun _ => rfl
  | cleanupFailed i error => exact reaction _ fun _ => consistent_advanceCleanup consistent i fun _ => rfl

theorem consistent_run (consistent : Consistent sessions a) {actions : List AuthorityAction} (regular : a.AllRegular actions)
    (about : About sessions actions) : Consistent sessions (a.run actions) := by
  induction actions generalizing a with
  | nil => exact consistent
  | cons action rest ih =>
    refine ih (consistent_step consistent regular.1 fun request member => ?_) regular.2 fun request member => ?_
    · obtain rfl := List.mem_singleton.mp member
      exact about request List.mem_cons_self
    · exact about request (List.mem_cons_of_mem _ member)

/-! ### What a state promises -/

theorem hangup_of_key {request : RealtimeVoiceHangupRequest}
    (key : ∀ other, a.idempotencySessions request.idempotencyKey = some other → other = request.sessionId) :
    (a.idempotencySessions request.idempotencyKey).any (· ≠ request.sessionId) = false := by
  cases held : a.idempotencySessions request.idempotencyKey with
  | none => rfl
  | some other => simp [key other held]

theorem used_of_hangup (request : RealtimeVoiceHangupRequest)
    (accepted : (a.hangup request).2 ≠ .rejected (.operation .idempotencyConflict)) :
    (a.hangup request).1.idempotencySessions request.idempotencyKey = some request.sessionId := by
  unfold hangup at accepted ⊢
  by_cases conflict : (a.idempotencySessions request.idempotencyKey).any (· ≠ request.sessionId) = true
  · rw [if_pos conflict] at accepted
    exact (accepted rfl).elim
  · rw [if_neg conflict]
    simp only
    cases a.terminal.get request.sessionId with
    | some result => exact Function.update_self ..
    | none =>
      simp only
      cases a.hangups request.sessionId with
      | some attempt => exact Function.update_self ..
      | none =>
        simp only
        split
        · exact Function.update_self ..
        · exact Function.update_self ..

theorem cleanup_record (event : AuthorityEvent) (request : RealtimeVoiceCleanupRequest) :
    (a.record event).cleanup request = ((a.cleanup request).1.record event, (a.cleanup request).2) := by
  unfold cleanup
  by_cases clean : a.cleaned request.sessionId = true
  · rw [if_pos (show (a.record event).cleaned request.sessionId = true from clean), if_pos clean]
  · rw [if_neg (show ¬(a.record event).cleaned request.sessionId = true from clean), if_neg clean]
    rw [show (a.record event).cleanups = a.cleanups from rfl, show (a.record event).isAborted = a.isAborted from rfl]
    cases a.cleanups request.sessionId with
    | some attempt => rfl
    | none =>
      by_cases aborted : a.isAborted request.signal = true
      · simp [aborted]
      · simp [aborted, record]

theorem step_hangupTerminated {i : Nat} (found : a.hangupAttempts[i]? = some o)
    (terminating : o.phase = .terminating) (quiet : a.isCalling = false) :
    a.step (.hangupTerminated i) = if a.ended o.request.sessionId then
        (a.record (.toolsTerminated i)).awaitCleanup i o.request
      else ((a.record (.toolsTerminated i)).record (.endInvoked i o.request.sessionId)).setHangup i o.request .ending := by
  simp only [step, quiet, Bool.false_eq_true, if_false, advanceHangup, found, terminating]
  rfl

theorem safe_of_consistent (consistent : Consistent sessions a) : a.Safe where
  oneEnd := by
    intro i j o p foundI foundJ endingO endingP same
    have goingO : a.hangupSlots.Going o.request.sessionId i := ⟨_, get_hangupSlots foundI, by rw [endingO]; decide⟩
    have goingP : a.hangupSlots.Going p.request.sessionId j := ⟨_, get_hangupSlots foundJ, by rw [endingP]; decide⟩
    rw [← same] at goingP
    exact consistent.hangups.unique _ i j goingO goingP
  oneCleanup := by
    intro i j o p foundI foundJ cleaningO cleaningP same
    have goingO : a.cleanupSlots.Going o.request.sessionId i := ⟨_, get_cleanupSlots foundI, by rw [cleaningO]; decide⟩
    have goingP : a.cleanupSlots.Going p.request.sessionId j := ⟨_, get_cleanupSlots foundJ, by rw [cleaningP]; decide⟩
    rw [← same] at goingP
    exact consistent.cleanups.unique _ i j goingO goingP
  once := consistent.once
  used := used_of_hangup
  hangupAgain := by
    intro request live key failed
    have unended : a.terminal.get request.sessionId = none := by
      cases held : a.terminal.get request.sessionId with
      | none => rfl
      | some result =>
        obtain ⟨o, member, same, spent⟩ := consistent.finished _ result held
        obtain ⟨error, failedO⟩ := failed o member same
        rw [failedO] at spent
        cases spent
    have free : a.hangupSlots.Free request.sessionId := by
      rw [free_hangups]
      intro o member same
      obtain ⟨error, failedO⟩ := failed o member same
      rw [failedO]
      rfl
    have absent : a.hangups request.sessionId = none := free.absent consistent.hangups
    unfold hangup
    rw [hangup_of_key key]
    have listed : request.signal ∉ a.aborted := by simpa [isAborted] using live
    simp [unended, absent, isAborted, listed]
  cleanupAgain := by
    intro request live failed
    have uncleaned : a.cleaned request.sessionId = false := by
      cases held : a.cleaned request.sessionId with
      | false => rfl
      | true =>
        obtain ⟨o, member, same, spent⟩ := consistent.wasCleaned _ held
        obtain ⟨error, failedO⟩ := failed o member same
        rw [failedO] at spent
        cases spent
    have free : a.cleanupSlots.Free request.sessionId := by
      rw [free_cleanups]
      intro o member same
      obtain ⟨error, failedO⟩ := failed o member same
      rw [failedO]
      rfl
    have absent : a.cleanups request.sessionId = none := free.absent consistent.cleanups
    simp [cleanup, uncleaned, absent, live]
  resumesEnd := by
    intro i o found terminating quiet unended
    obtain ⟨small, -⟩ := List.getElem?_eq_some_iff.mp found
    have open' : a.ended o.request.sessionId = false := by
      rw [← Bool.not_eq_true, consistent.ended]
      exact unended
    rw [step_hangupTerminated found terminating quiet, open']
    exact ⟨by simp [setHangup, record], by simp [setHangup, record, small]⟩
  resumesCleanup := by
    intro i o found terminating quiet ended
    obtain ⟨small, -⟩ := List.getElem?_eq_some_iff.mp found
    rw [step_hangupTerminated found terminating quiet, if_pos ((consistent.ended _).mpr ended), awaitCleanup, cleanup_record]
    rcases cleanup_cases a ⟨o.request.sessionId, o.request.signal⟩ with same | ⟨-, -, pushed⟩
    · simp [same, setHangup, record, small]
    · simp [pushed, setHangup, record, small]
  cleanedOnce := by
    intro request clean
    rw [cleanup, if_pos ((consistent.cleaned _).mpr clean)]

/-! ### What later states keep -/

structure Later (a b : SessionAuthority) : Prop where
  terminal : ∀ sessionId result, a.terminal.get sessionId = some result → b.terminal.get sessionId = some result
  keys : ∀ key sessionId, a.idempotencySessions key = some sessionId → b.idempotencySessions key = some sessionId

theorem Later.refl (a : SessionAuthority) : Later a a := ⟨fun _ _ held => held, fun _ _ held => held⟩

theorem Later.trans {c : SessionAuthority} (first : Later a b) (second : Later b c) : Later a c :=
  ⟨fun _ _ held => second.terminal _ _ (first.terminal _ _ held), fun _ _ held => second.keys _ _ (first.keys _ _ held)⟩

theorem later_of_same (terminal : b.terminal = a.terminal) (keys : b.idempotencySessions = a.idempotencySessions) :
    Later a b := by
  constructor
  · rw [terminal]
    exact fun _ _ held => held
  · rw [keys]
    exact fun _ _ held => held

theorem later_hangup (request : RealtimeVoiceHangupRequest) : Later a (a.hangup request).1 := by
  unfold hangup
  by_cases conflict : (a.idempotencySessions request.idempotencyKey).any (· ≠ request.sessionId) = true
  · rw [if_pos conflict]
    exact .refl a
  · rw [if_neg conflict]
    have used : ∀ key sessionId, a.idempotencySessions key = some sessionId →
        Function.update a.idempotencySessions request.idempotencyKey (some request.sessionId) key = some sessionId := by
      intro key sessionId held
      by_cases same : key = request.idempotencyKey
      · subst same
        rw [held] at conflict
        have agrees : sessionId = request.sessionId := by simpa using conflict
        rw [Function.update_self, agrees]
      · rw [Function.update_of_ne same]
        exact held
    simp only
    cases a.terminal.get request.sessionId with
    | some result => exact ⟨fun _ _ held => held, used⟩
    | none =>
      simp only
      cases a.hangups request.sessionId with
      | some attempt => exact ⟨fun _ _ held => held, used⟩
      | none =>
        simp only
        split
        · exact ⟨fun _ _ held => held, used⟩
        · exact ⟨fun _ _ held => held, used⟩

theorem later_cleanup (request : RealtimeVoiceCleanupRequest) : Later a (a.cleanup request).1 := by
  rcases cleanup_cases a request with same | ⟨-, -, pushed⟩
  · rw [same]
    exact .refl a
  · rw [pushed]
    exact later_of_same rfl rfl

theorem later_awaitCleanup (i : Nat) (request : RealtimeVoiceHangupRequest) : Later a (a.awaitCleanup i request) := by
  have asked : Later a (a.cleanup ⟨request.sessionId, request.signal⟩).1 := later_cleanup _
  exact asked.trans (later_of_same rfl rfl)

theorem later_finishHangup (consistent : Consistent sessions a) {i : Nat}
    (found : a.hangupAttempts[i]? = some o) (stored : o.phase.stage = .stored) (reading : ClockReading) :
    Later a (a.finishHangup i o.request reading) := by
  unfold finishHangup
  split
  · exact later_of_same rfl rfl
  · rename_i endedAt read
    simp only
    rw [rememberTerminal_eq (room_for_result consistent (List.mem_of_getElem? found) endedAt)]
    refine ⟨fun sessionId result held => ?_, fun _ _ held => held⟩
    by_cases same : sessionId = o.request.sessionId
    · have free := consistent.free sessionId result held
      rw [same] at free
      cases free i .stored (by rw [get_hangupSlots found, stored])
    · exact (OrderedMap.get_set_other _ _ same).trans held

theorem later_stepHangup (consistent : Consistent sessions a) {i : Nat}
    (found : a.hangupAttempts[i]? = some o) (action : AuthorityAction) :
    Later a (a.stepHangup i o.request o.phase action) := by
  have same : Later a a := .refl a
  cases phase : o.phase with
  | entered => cases action <;> first | exact same | exact later_of_same rfl rfl
  | terminating =>
    cases action with
    | hangupTerminated _ =>
      have recorded : Later a (a.record (.toolsTerminated i)) := later_of_same rfl rfl
      simp only [stepHangup]
      split
      · exact recorded.trans (later_awaitCleanup i o.request)
      · exact later_of_same rfl rfl
    | hangupFailed _ error => exact later_of_same rfl rfl
    | _ => exact same
  | ending =>
    cases action with
    | endSucceeded _ =>
      have recorded : Later a { a.record (.endSucceeded o.request.sessionId) with
          ended := Function.update a.ended o.request.sessionId true } := later_of_same rfl rfl
      exact recorded.trans (later_awaitCleanup i o.request)
    | hangupFailed _ error => exact later_of_same rfl rfl
    | _ => exact same
  | cleaning reply =>
    cases action with
    | hangupResumed _ reading =>
      simp only [stepHangup]
      split
      · exact same
      · exact later_of_same rfl rfl
      · exact later_finishHangup consistent found (by rw [phase]; rfl) reading
    | _ => exact same
  | settled result => cases action <;> exact same

theorem later_stepCleanup (i : Nat) (request : RealtimeVoiceCleanupRequest) (phase : CleanupPhase)
    (action : AuthorityAction) : Later a (a.stepCleanup i request phase action) := by
  cases phase <;> cases action <;> exact later_of_same rfl rfl

/-- Terminal results and idempotency keys stay. -/
theorem later_step (consistent : Consistent sessions a) (action : AuthorityAction) : Later a (a.step action) := by
  have same : Later a a := .refl a
  have hangups (i : Nat) (action : AuthorityAction) : Later a (a.advanceHangup i action) := by
    unfold advanceHangup
    split
    · exact later_stepHangup consistent (by assumption) action
    · exact same
  have cleanups (i : Nat) (action : AuthorityAction) : Later a (a.advanceCleanup i action) := by
    unfold advanceCleanup
    split
    · exact later_stepCleanup i _ _ action
    · exact same
  have reaction {b : SessionAuthority} (advanced : Later a b) : Later a (if a.isCalling then a else b) := by
    split
    · exact same
    · exact advanced
  cases action with
  | hangup request => exact later_hangup request
  | cleanup request => exact later_cleanup request
  | abort signal => exact later_of_same rfl rfl
  | hangupReturned i => exact hangups i _
  | hangupThrew i error => exact hangups i _
  | cleanupReturned i => exact cleanups i _
  | cleanupThrew i error => exact cleanups i _
  | hangupTerminated i => exact reaction (hangups i _)
  | endSucceeded i => exact reaction (hangups i _)
  | hangupFailed i error => exact reaction (hangups i _)
  | hangupResumed i reading => exact reaction (hangups i _)
  | cleanupTerminated i => exact reaction (cleanups i _)
  | cleanupSucceeded i => exact reaction (cleanups i _)
  | cleanupFailed i error => exact reaction (cleanups i _)

theorem later_run (consistent : Consistent sessions a) {actions : List AuthorityAction} (regular : a.AllRegular actions)
    (about : About sessions actions) : Later a (a.run actions) := by
  induction actions generalizing a with
  | nil => exact .refl a
  | cons action rest ih =>
    have first : About sessions [action] := by
      intro request member
      obtain rfl := List.mem_singleton.mp member
      exact about request List.mem_cons_self
    have next := consistent_step consistent regular.1 first
    exact (later_step consistent action).trans (ih next regular.2 fun request member =>
      about request (List.mem_cons_of_mem _ member))

theorem kept_of_later (consistent : Consistent sessions a) (later : Later a b) : Kept a b where
  result := by
    intro o member result spent request same key
    have held := later.terminal _ _ (consistent.settled o member result spent)
    rw [← same] at held
    unfold hangup
    rw [hangup_of_key key]
    simp [held]
  keys := by
    intro request used held different
    have stays := later.keys _ _ held
    unfold hangup
    rw [stays]
    simp [different]

theorem allRegular_append {first later : List AuthorityAction} :
    a.AllRegular (first ++ later) ↔ a.AllRegular first ∧ (a.run first).AllRegular later := by
  induction first generalizing a with
  | nil => exact (true_and _).symm ▸ Iff.rfl
  | cons action rest ih =>
    simp only [List.cons_append, AllRegular, ih, and_assoc]
    rfl

/-- Hangups and cleanups over as many sessions as are tracked: every step is done once, and what has failed can be tried
again, as long as no call of `terminateSession` throws or asks for what it is part of. -/
theorem hangups_safe (sessions : List JsString) (maximum : Nat) (before after : List AuthorityAction)
    (few : sessions.length ≤ maximum) (about : About sessions (before ++ after))
    (regular : (create maximum).AllRegular (before ++ after)) :
    ((create maximum).run before).Safe ∧ Kept ((create maximum).run before) ((create maximum).run (before ++ after)) := by
  obtain ⟨first, second⟩ := allRegular_append.mp regular
  have start := consistent_run (consistent_create few) first fun request member => about request (List.mem_append_left _ member)
  have later := later_run start second fun request member => about request (List.mem_append_right _ member)
  have whole : (create maximum).run (before ++ after) = ((create maximum).run before).run after := List.foldl_append ..
  rw [whole]
  exact ⟨safe_of_consistent start, kept_of_later start later⟩

def sampleHangup (key : String) : RealtimeVoiceHangupRequest where
  requestId := js "request"
  idempotencyKey := js key
  sessionId := js "session"
  reason := .clientRequest
  signal := 0

def sampleRetry : List AuthorityAction :=
  [.hangup (sampleHangup "first"), .hangupReturned 0, .hangupTerminated 0, .endSucceeded 0,
  .cleanupReturned 0, .cleanupTerminated 0, .cleanupFailed 0 (.value none), .hangupResumed 0 .notFinite,
  .hangup (sampleHangup "second"), .hangupReturned 1, .hangupTerminated 1, .cleanupReturned 1, .cleanupTerminated 1,
  .cleanupSucceeded 1]

/-- A session is ended once and cleaned when it is tried again, and the hangup resolves. -/
theorem hangups_safe_retried : ((create 1).run sampleRetry).Safe ∧
    Kept ((create 1).run sampleRetry)
      ((create 1).run (sampleRetry ++ [.hangupResumed 1 (.finite (some (js "2026-01-01T00:00:00.000Z")))])) ∧
    ((create 1).run (sampleRetry ++ [.hangupResumed 1 (.finite (some (js "2026-01-01T00:00:00.000Z")))])).terminal.get
      (js "session") = some ⟨js "session", js "2026-01-01T00:00:00.000Z"⟩ := by
  have about : About [js "session"]
      (sampleRetry ++ [.hangupResumed 1 (.finite (some (js "2026-01-01T00:00:00.000Z")))]) := by
    intro request member
    simp only [sampleRetry, List.cons_append, List.nil_append, List.mem_cons, List.not_mem_nil, or_false, reduceCtorEq,
      false_or, AuthorityAction.hangup.injEq] at member
    rcases member with rfl | rfl <;> exact List.mem_singleton_self _
  obtain ⟨safe, kept⟩ := hangups_safe [js "session"] 1 sampleRetry _ (by decide) about
    ⟨rfl, rfl, rfl, rfl, rfl, rfl, rfl, rfl, rfl, rfl, rfl, rfl, rfl, rfl, rfl, trivial⟩
  exact ⟨safe, kept, rfl⟩

/-- A hangup whose call of `terminateSession` throws: the next hangup is answered its rejected promise. -/
theorem failed_hangup_stays : ∃ a, a = (create 1000).run [.hangup (sampleHangup "first"), .hangupThrew 0 (.value none)] ∧
    a.hangupAttempts.map (fun o => o.phase.stage) = [.spent] ∧ a.terminal.get (js "session") = none ∧
    (a.hangup (sampleHangup "second")).2 = .joined 0 ∧ ¬a.Safe := by
  refine ⟨_, rfl, rfl, rfl, rfl, fun safe => ?_⟩
  have again := safe.hangupAgain (sampleHangup "second") rfl ?_ ?_
  · cases again
  · intro other held
    cases held
  · intro o member same
    rw [List.mem_singleton.mp member]
    exact ⟨_, rfl⟩

end SessionAuthority

end Handrail.Realtime

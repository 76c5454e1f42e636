import Handrail.Realtime.SessionAuthority

/-!
# The invariant of the session authority

Attempts and their table are slots, for hangups and for cleanups alike. The sets of ended and cleaned sessions say what the
host has seen succeed, as long as no terminal result is forgotten.
-/

namespace Handrail.Realtime
open Js Concurrent Protocol

namespace SessionAuthority

/-! ### Slots -/

def hangupSlots (a : SessionAuthority) : Slots JsString where
  attempts := a.hangupAttempts.map fun o => (o.request.sessionId, o.phase.stage)
  table := a.hangups

def cleanupSlots (a : SessionAuthority) : Slots JsString where
  attempts := a.cleanupAttempts.map fun o => (o.request.sessionId, o.phase.stage)
  table := a.cleanups

variable {i : Nat} {o : HangupAttempt}

theorem get_hangupSlots {a : SessionAuthority} (found : a.hangupAttempts[i]? = some o) :
    a.hangupSlots.attempts[i]? = some (o.request.sessionId, o.phase.stage) := by
  rw [hangupSlots, List.getElem?_map, found]
  rfl

theorem get_cleanupSlots {a : SessionAuthority} {o : CleanupAttempt} (found : a.cleanupAttempts[i]? = some o) :
    a.cleanupSlots.attempts[i]? = some (o.request.sessionId, o.phase.stage) := by
  rw [cleanupSlots, List.getElem?_map, found]
  rfl

theorem free_hangups {a : SessionAuthority} {sessionId : JsString} : a.hangupSlots.Free sessionId ↔
    ∀ o ∈ a.hangupAttempts, o.request.sessionId = sessionId → o.phase.stage = .spent := by
  constructor
  · intro free o member same
    obtain ⟨i, found⟩ := List.mem_iff_getElem?.mp member
    exact free i o.phase.stage (by rw [get_hangupSlots found, same])
  · intro free i stage found
    obtain ⟨o, held, same⟩ := Option.map_eq_some_iff.mp ((List.getElem?_map ..).symm.trans found)
    obtain ⟨rfl, rfl⟩ := Prod.mk.inj same
    exact free o (List.mem_of_getElem? held) rfl

theorem free_cleanups {a : SessionAuthority} {sessionId : JsString} : a.cleanupSlots.Free sessionId ↔
    ∀ o ∈ a.cleanupAttempts, o.request.sessionId = sessionId → o.phase.stage = .spent := by
  constructor
  · intro free o member same
    obtain ⟨i, found⟩ := List.mem_iff_getElem?.mp member
    exact free i o.phase.stage (by rw [get_cleanupSlots found, same])
  · intro free i stage found
    obtain ⟨o, held, same⟩ := Option.map_eq_some_iff.mp ((List.getElem?_map ..).symm.trans found)
    obtain ⟨rfl, rfl⟩ := Prod.mk.inj same
    exact free o (List.mem_of_getElem? held) rfl

/-! ### The invariant -/

/-- Tool calls are terminated before a session is ended, and nothing is invoked again that has succeeded. -/
def invokedOnce (before : List AuthorityEvent) : AuthorityEvent → Prop
  | .endInvoked attempt sessionId => .toolsTerminated attempt ∈ before ∧ .endSucceeded sessionId ∉ before
  | .cleanupInvoked sessionId => .cleanupSucceeded sessionId ∉ before
  | _ => True

structure Consistent (sessions : List JsString) (a : SessionAuthority) : Prop where
  hangups : a.hangupSlots.Exclusive
  cleanups : a.cleanupSlots.Exclusive
  ended : ∀ sessionId, a.ended sessionId = true ↔ .endSucceeded sessionId ∈ a.log
  cleaned : ∀ sessionId, a.cleaned sessionId = true ↔ .cleanupSucceeded sessionId ∈ a.log
  uncleaned : ∀ o ∈ a.cleanupAttempts, o.phase.stage ≠ .spent → a.cleaned o.request.sessionId = false
  wasCleaned : ∀ sessionId, a.cleaned sessionId = true →
    ∃ o ∈ a.cleanupAttempts, o.request.sessionId = sessionId ∧ o.phase = .settled (.ok ())
  finished : ∀ sessionId result, a.terminal.get sessionId = some result →
    ∃ o ∈ a.hangupAttempts, o.request.sessionId = sessionId ∧ o.phase = .settled (.ok result)
  free : ∀ sessionId result, a.terminal.get sessionId = some result → a.hangupSlots.Free sessionId
  settled : ∀ o ∈ a.hangupAttempts, ∀ result, o.phase = .settled (.ok result) →
    a.terminal.get o.request.sessionId = some result
  about : ∀ o ∈ a.hangupAttempts, o.request.sessionId ∈ sessions
  once : Everywhere invokedOnce a.log
  few : sessions.length ≤ a.maximumTrackedSessions

theorem consistent_create {sessions : List JsString} {maximum : Nat} (few : sessions.length ≤ maximum) :
    Consistent sessions (create maximum) where
  hangups := ⟨by simp [create, hangupSlots], by simp [create, hangupSlots, Slots.Going]⟩
  cleanups := ⟨by simp [create, cleanupSlots], by simp [create, cleanupSlots, Slots.Going]⟩
  ended := by simp [create]
  cleaned := by simp [create]
  uncleaned := by simp [create]
  wasCleaned := by simp [create]
  finished := by simp [create]
  free := by simp [create]
  settled := by simp [create]
  about := by simp [create]
  once := everywhere_nil
  few := few

variable {sessions : List JsString} {a b : SessionAuthority}

theorem mem_set_of_ne {α : Type} {l : List α} {c o : α} (x : α) (found : l[i]? = some c) (other : o ≠ c)
    (member : o ∈ l) : o ∈ l.set i x := by
  obtain ⟨j, held⟩ := List.mem_iff_getElem?.mp member
  have apart : i ≠ j := by
    rintro rfl
    rw [found] at held
    exact other (Option.some.inj held).symm
  exact List.mem_of_getElem? ((List.getElem?_set_ne apart).trans held)

/-! ### Hangups -/

structure HangupsOnly (a b : SessionAuthority) : Prop where
  maximum : b.maximumTrackedSessions = a.maximumTrackedSessions
  cleanupAttempts : b.cleanupAttempts = a.cleanupAttempts
  cleanups : b.cleanups = a.cleanups
  ended : b.ended = a.ended
  cleaned : b.cleaned = a.cleaned
  log : b.log = a.log

theorem Consistent.hangupsOnly (consistent : Consistent sessions a) (only : HangupsOnly a b)
    (hangups : b.hangupSlots.Exclusive)
    (finished : ∀ sessionId result, b.terminal.get sessionId = some result →
      ∃ o ∈ b.hangupAttempts, o.request.sessionId = sessionId ∧ o.phase = .settled (.ok result))
    (free : ∀ sessionId result, b.terminal.get sessionId = some result → b.hangupSlots.Free sessionId)
    (settled : ∀ o ∈ b.hangupAttempts, ∀ result, o.phase = .settled (.ok result) →
      b.terminal.get o.request.sessionId = some result)
    (about : ∀ o ∈ b.hangupAttempts, o.request.sessionId ∈ sessions) : Consistent sessions b where
  hangups := hangups
  cleanups := by
    have same : b.cleanupSlots = a.cleanupSlots := by rw [cleanupSlots, cleanupSlots, only.cleanupAttempts, only.cleanups]
    rw [same]
    exact consistent.cleanups
  ended := by
    rw [only.ended, only.log]
    exact consistent.ended
  cleaned := by
    rw [only.cleaned, only.log]
    exact consistent.cleaned
  uncleaned := by
    rw [only.cleanupAttempts, only.cleaned]
    exact consistent.uncleaned
  wasCleaned := by
    rw [only.cleanupAttempts, only.cleaned]
    exact consistent.wasCleaned
  finished := finished
  free := free
  settled := settled
  about := about
  once := by
    rw [only.log]
    exact consistent.once
  few := by
    rw [only.maximum]
    exact consistent.few

theorem consistent_pushHangup (consistent : Consistent sessions a) {request : RealtimeVoiceHangupRequest}
    (about : request.sessionId ∈ sessions) (fresh : a.terminal.get request.sessionId = none)
    (free : a.hangupSlots.Free request.sessionId) :
    Consistent sessions { a with hangupAttempts := a.hangupAttempts ++ [⟨request, .entered⟩] } := by
  have slots : hangupSlots { a with hangupAttempts := a.hangupAttempts ++ [⟨request, .entered⟩] } =
      a.hangupSlots.begin request.sessionId := by simp [hangupSlots, Slots.begin, HangupPhase.stage]
  refine consistent.hangupsOnly ⟨rfl, rfl, rfl, rfl, rfl, rfl⟩ ?_ ?_ ?_ ?_ ?_
  · rw [slots]
    exact Slots.exclusive_begin consistent.hangups free
  · intro sessionId result held
    obtain ⟨o, member, same⟩ := consistent.finished sessionId result held
    exact ⟨o, List.mem_append_left _ member, same⟩
  · intro sessionId result held
    rw [free_hangups]
    intro o member same
    rcases List.mem_append.mp member with before | last
    · exact free_hangups.mp (consistent.free sessionId result held) o before same
    · obtain rfl := List.mem_singleton.mp last
      obtain rfl : request.sessionId = sessionId := same
      rw [fresh] at held
      cases held
  · intro o member result spent
    rcases List.mem_append.mp member with before | last
    · exact consistent.settled o before result spent
    · obtain rfl := List.mem_singleton.mp last
      cases spent
  · intro o member
    rcases List.mem_append.mp member with before | last
    · exact consistent.about o before
    · rw [List.mem_singleton.mp last]
      exact about

theorem consistent_setHangup (consistent : Consistent sessions a)
    (found : a.hangupAttempts[i]? = some o) (going : o.phase.stage ≠ .spent) {phase : HangupPhase}
    (unsuccessful : ∀ result, phase ≠ .settled (.ok result)) (hangups : b.hangupSlots.Exclusive)
    (only : HangupsOnly a b) (attempts : b.hangupAttempts = a.hangupAttempts.set i ⟨o.request, phase⟩)
    (terminal : b.terminal = a.terminal) : Consistent sessions b := by
  have member := List.mem_of_getElem? found
  refine consistent.hangupsOnly only hangups ?_ ?_ ?_ ?_
  · rw [terminal, attempts]
    intro sessionId result held
    obtain ⟨p, there, same, spent⟩ := consistent.finished sessionId result held
    refine ⟨p, mem_set_of_ne _ found ?_ there, same, spent⟩
    rintro rfl
    rw [spent] at going
    exact going rfl
  · rw [terminal]
    intro sessionId result held
    rw [free_hangups, attempts]
    have free := free_hangups.mp (consistent.free sessionId result held)
    intro p there same
    rcases List.mem_or_eq_of_mem_set there with before | rfl
    · exact free p before same
    · exact (going (free o member same)).elim
  · rw [terminal, attempts]
    intro p there result spent
    rcases List.mem_or_eq_of_mem_set there with before | rfl
    · exact consistent.settled p before result spent
    · exact (unsuccessful result spent).elim
  · rw [attempts]
    intro p there
    rcases List.mem_or_eq_of_mem_set there with before | rfl
    · exact consistent.about p before
    · exact consistent.about o member

theorem slots_setHangup {request : RealtimeVoiceHangupRequest} {phase : HangupPhase} {entry : Option Nat} :
    ((a.setHangup i request phase).enterHangup request.sessionId entry).hangupSlots =
      a.hangupSlots.move request.sessionId i phase.stage entry := by
  simp [hangupSlots, Slots.move, setHangup, enterHangup, List.map_set]

theorem consistent_enterHangup (consistent : Consistent sessions a)
    (found : a.hangupAttempts[i]? = some o) (entered : o.phase.stage = .entering) :
    Consistent sessions ((a.setHangup i o.request .terminating).enterHangup o.request.sessionId (some i)) := by
  refine consistent_setHangup consistent found (by rw [entered]; decide) (fun _ same => by cases same) ?_
    ⟨rfl, rfl, rfl, rfl, rfl, rfl⟩ rfl rfl
  rw [slots_setHangup]
  exact Slots.exclusive_store consistent.hangups (by rw [get_hangupSlots found, entered])

theorem consistent_moveHangup (consistent : Consistent sessions a)
    (found : a.hangupAttempts[i]? = some o) (stored : o.phase.stage = .stored) {phase : HangupPhase}
    (next : phase.stage = .stored) : Consistent sessions (a.setHangup i o.request phase) := by
  have slots : (a.setHangup i o.request phase).hangupSlots = a.hangupSlots := by
    obtain ⟨small, held⟩ := List.getElem?_eq_some_iff.mp (get_hangupSlots found)
    have same : a.hangupSlots.attempts.set i (o.request.sessionId, phase.stage) = a.hangupSlots.attempts := by
      rw [next, ← stored, ← held, List.set_getElem_self]
    simp only [hangupSlots, setHangup, List.map_set] at same ⊢
    rw [same]
  refine consistent_setHangup consistent found (by rw [stored]; decide) ?_ ?_ ⟨rfl, rfl, rfl, rfl, rfl, rfl⟩ rfl rfl
  · rintro result rfl
    cases next
  · rw [slots]
    exact consistent.hangups

theorem consistent_failHangup (consistent : Consistent sessions a)
    (found : a.hangupAttempts[i]? = some o) (stored : o.phase.stage = .stored) (error : Thrown) :
    Consistent sessions (a.failHangup i o.request error) := by
  refine consistent_setHangup consistent found (by rw [stored]; decide) (fun _ same => by cases same) ?_
    ⟨rfl, rfl, rfl, rfl, rfl, rfl⟩ rfl rfl
  rw [failHangup, slots_setHangup]
  exact Slots.exclusive_finish consistent.hangups (by rw [get_hangupSlots found, stored])

theorem rememberTerminal_eq {result : RealtimeVoiceTerminalResult}
    (room : (a.terminal.set result.sessionId result).size ≤ a.maximumTrackedSessions) :
    a.rememberTerminal result = { a with terminal := a.terminal.set result.sessionId result } := by
  unfold rememberTerminal
  simp only
  cases (a.terminal.set result.sessionId result).size with
  | zero => rfl
  | succ count => rw [forgetOldest, if_pos room]

theorem room_for_result (consistent : Consistent sessions a) (member : o ∈ a.hangupAttempts)
    (endedAt : JsString) :
    (a.terminal.set o.request.sessionId ⟨o.request.sessionId, endedAt⟩).size ≤ a.maximumTrackedSessions := by
  refine Nat.le_trans (OrderedMap.size_le_of_keys fun key value held => ?_) consistent.few
  by_cases same : key = o.request.sessionId
  · rw [same]
    exact consistent.about o member
  · rw [OrderedMap.get_set_other _ _ same] at held
    obtain ⟨p, there, rfl, -⟩ := consistent.finished key value held
    exact consistent.about p there

theorem consistent_finishHangup (consistent : Consistent sessions a) (found : a.hangupAttempts[i]? = some o)
    (stored : o.phase.stage = .stored)
    (reading : ClockReading) : Consistent sessions (a.finishHangup i o.request reading) := by
  have member := List.mem_of_getElem? found
  unfold finishHangup
  split
  · exact consistent_failHangup consistent found stored _
  · rename_i endedAt read
    simp only
    rw [rememberTerminal_eq (room_for_result consistent member endedAt)]
    have slots : hangupSlots ((setHangup { a with
          terminal := a.terminal.set o.request.sessionId ⟨o.request.sessionId, endedAt⟩ } i o.request
          (.settled (.ok ⟨o.request.sessionId, endedAt⟩))).enterHangup o.request.sessionId none) =
        a.hangupSlots.move o.request.sessionId i .spent none := slots_setHangup
    have at_i : a.hangupSlots.attempts[i]? = some (o.request.sessionId, .stored) := by rw [get_hangupSlots found, stored]
    have fresh : ∀ p ∈ a.hangupAttempts, ∀ result, p.phase = .settled (.ok result) →
        p.request.sessionId ≠ o.request.sessionId := by
      intro p there result spent same
      have free := consistent.free _ result (consistent.settled p there result spent)
      rw [same] at free
      cases free i .stored at_i
    refine consistent.hangupsOnly ⟨rfl, rfl, rfl, rfl, rfl, rfl⟩ ?_ ?_ ?_ ?_ ?_
    · rw [slots]
      exact Slots.exclusive_finish consistent.hangups at_i
    · intro sessionId result held
      simp only [setHangup, enterHangup] at held ⊢
      by_cases same : sessionId = o.request.sessionId
      · subst same
        rw [OrderedMap.get_set_self] at held
        obtain rfl := Option.some.inj held
        obtain ⟨small, -⟩ := List.getElem?_eq_some_iff.mp found
        exact ⟨⟨o.request, .settled (.ok _)⟩, List.mem_set small _, rfl, rfl⟩
      · rw [OrderedMap.get_set_other _ _ same] at held
        obtain ⟨p, there, sameSession, spent⟩ := consistent.finished sessionId result held
        refine ⟨p, mem_set_of_ne _ found ?_ there, sameSession, spent⟩
        rintro rfl
        exact same sameSession.symm
    · intro sessionId result held
      rw [slots]
      simp only [setHangup, enterHangup] at held
      by_cases same : sessionId = o.request.sessionId
      · subst same
        exact Slots.free_finish consistent.hangups at_i
      · rw [OrderedMap.get_set_other _ _ same] at held
        intro j stage there
        rw [Slots.getElem?_move at_i] at there
        by_cases here : i = j
        · rw [if_pos here] at there
          cases there
          rfl
        · rw [if_neg here] at there
          exact consistent.free sessionId result held j stage there
    · intro p there result spent
      simp only [setHangup, enterHangup] at there ⊢
      rcases List.mem_or_eq_of_mem_set there with before | rfl
      · rw [OrderedMap.get_set_other _ _ (fresh p before result spent)]
        exact consistent.settled p before result spent
      · cases spent
        exact OrderedMap.get_set_self ..
    · intro p there
      rcases List.mem_or_eq_of_mem_set there with before | rfl
      · exact consistent.about p before
      · exact consistent.about o member

/-! ### The log -/

theorem consistent_record (consistent : Consistent sessions a) {event : AuthorityEvent} (rule : invokedOnce a.log event)
    (noEnd : ∀ sessionId, event ≠ .endSucceeded sessionId) (noCleanup : ∀ sessionId, event ≠ .cleanupSucceeded sessionId) :
    Consistent sessions (a.record event) where
  hangups := consistent.hangups
  cleanups := consistent.cleanups
  ended := by
    intro sessionId
    simp [record, (noEnd sessionId).symm, consistent.ended]
  cleaned := by
    intro sessionId
    simp [record, (noCleanup sessionId).symm, consistent.cleaned]
  uncleaned := consistent.uncleaned
  wasCleaned := consistent.wasCleaned
  finished := consistent.finished
  free := consistent.free
  settled := consistent.settled
  about := consistent.about
  once := everywhere_snoc.mpr ⟨consistent.once, rule⟩
  few := consistent.few

theorem consistent_endSucceeded (consistent : Consistent sessions a) (sessionId : JsString) :
    Consistent sessions { a.record (.endSucceeded sessionId) with ended := Function.update a.ended sessionId true } where
  hangups := consistent.hangups
  cleanups := consistent.cleanups
  ended := by
    intro other
    by_cases same : other = sessionId
    · simp [record, same]
    · simp [record, same, consistent.ended]
  cleaned := by
    intro other
    simp [record, consistent.cleaned]
  uncleaned := consistent.uncleaned
  wasCleaned := consistent.wasCleaned
  finished := consistent.finished
  free := consistent.free
  settled := consistent.settled
  about := consistent.about
  once := everywhere_snoc.mpr ⟨consistent.once, trivial⟩
  few := consistent.few

/-! ### Cleanups -/

theorem slots_setCleanup {request : RealtimeVoiceCleanupRequest} {phase : CleanupPhase} {entry : Option Nat} :
    ((a.setCleanup i request phase).enterCleanup request.sessionId entry).cleanupSlots =
      a.cleanupSlots.move request.sessionId i phase.stage entry := by
  simp [cleanupSlots, Slots.move, setCleanup, enterCleanup, List.map_set]

structure CleanupsOnly (a b : SessionAuthority) : Prop where
  maximum : b.maximumTrackedSessions = a.maximumTrackedSessions
  hangupAttempts : b.hangupAttempts = a.hangupAttempts
  hangups : b.hangups = a.hangups
  terminal : b.terminal = a.terminal
  ended : b.ended = a.ended
  cleaned : b.cleaned = a.cleaned
  log : b.log = a.log

theorem Consistent.cleanupsOnly (consistent : Consistent sessions a) (only : CleanupsOnly a b)
    (cleanups : b.cleanupSlots.Exclusive)
    (uncleaned : ∀ o ∈ b.cleanupAttempts, o.phase.stage ≠ .spent → b.cleaned o.request.sessionId = false)
    (wasCleaned : ∀ sessionId, b.cleaned sessionId = true →
      ∃ o ∈ b.cleanupAttempts, o.request.sessionId = sessionId ∧ o.phase = .settled (.ok ())) : Consistent sessions b where
  hangups := by
    have same : b.hangupSlots = a.hangupSlots := by rw [hangupSlots, hangupSlots, only.hangupAttempts, only.hangups]
    rw [same]
    exact consistent.hangups
  cleanups := cleanups
  ended := by
    rw [only.ended, only.log]
    exact consistent.ended
  cleaned := by
    rw [only.cleaned, only.log]
    exact consistent.cleaned
  uncleaned := uncleaned
  wasCleaned := wasCleaned
  finished := by
    rw [only.terminal, only.hangupAttempts]
    exact consistent.finished
  free := by
    have same : b.hangupSlots = a.hangupSlots := by rw [hangupSlots, hangupSlots, only.hangupAttempts, only.hangups]
    rw [only.terminal, same]
    exact consistent.free
  settled := by
    rw [only.terminal, only.hangupAttempts]
    exact consistent.settled
  about := by
    rw [only.hangupAttempts]
    exact consistent.about
  once := by
    rw [only.log]
    exact consistent.once
  few := by
    rw [only.maximum]
    exact consistent.few

theorem consistent_pushCleanup (consistent : Consistent sessions a) {request : RealtimeVoiceCleanupRequest}
    (uncleaned : a.cleaned request.sessionId = false) (free : a.cleanupSlots.Free request.sessionId) :
    Consistent sessions { a with cleanupAttempts := a.cleanupAttempts ++ [⟨request, .entered⟩] } := by
  have slots : cleanupSlots { a with cleanupAttempts := a.cleanupAttempts ++ [⟨request, .entered⟩] } =
      a.cleanupSlots.begin request.sessionId := by simp [cleanupSlots, Slots.begin, CleanupPhase.stage]
  refine consistent.cleanupsOnly ⟨rfl, rfl, rfl, rfl, rfl, rfl, rfl⟩ ?_ ?_ ?_
  · rw [slots]
    exact Slots.exclusive_begin consistent.cleanups free
  · intro o member going
    rcases List.mem_append.mp member with before | last
    · exact consistent.uncleaned o before going
    · rw [List.mem_singleton.mp last]
      exact uncleaned
  · intro sessionId clean
    obtain ⟨o, member, same⟩ := consistent.wasCleaned sessionId clean
    exact ⟨o, List.mem_append_left _ member, same⟩

theorem consistent_setCleanup (consistent : Consistent sessions a) {o : CleanupAttempt}
    (found : a.cleanupAttempts[i]? = some o) (going : o.phase.stage ≠ .spent) {phase : CleanupPhase}
    (cleanups : b.cleanupSlots.Exclusive) (only : CleanupsOnly a b)
    (attempts : b.cleanupAttempts = a.cleanupAttempts.set i ⟨o.request, phase⟩) : Consistent sessions b := by
  have member := List.mem_of_getElem? found
  refine consistent.cleanupsOnly only cleanups ?_ ?_
  · rw [only.cleaned, attempts]
    intro p there unsettled
    rcases List.mem_or_eq_of_mem_set there with before | rfl
    · exact consistent.uncleaned p before unsettled
    · exact consistent.uncleaned o member going
  · rw [only.cleaned, attempts]
    intro sessionId clean
    obtain ⟨p, there, same, spent⟩ := consistent.wasCleaned sessionId clean
    refine ⟨p, mem_set_of_ne _ found ?_ there, same, spent⟩
    rintro rfl
    rw [spent] at going
    exact going rfl

theorem consistent_enterCleanup (consistent : Consistent sessions a) {o : CleanupAttempt}
    (found : a.cleanupAttempts[i]? = some o) (entered : o.phase.stage = .entering) :
    Consistent sessions ((a.setCleanup i o.request .terminating).enterCleanup o.request.sessionId (some i)) := by
  refine consistent_setCleanup consistent found (by rw [entered]; decide) ?_ ⟨rfl, rfl, rfl, rfl, rfl, rfl, rfl⟩ rfl
  rw [slots_setCleanup]
  exact Slots.exclusive_store consistent.cleanups (by rw [get_cleanupSlots found, entered])

theorem consistent_moveCleanup (consistent : Consistent sessions a) {o : CleanupAttempt}
    (found : a.cleanupAttempts[i]? = some o) (stored : o.phase.stage = .stored) {phase : CleanupPhase}
    (next : phase.stage = .stored) : Consistent sessions (a.setCleanup i o.request phase) := by
  have slots : (a.setCleanup i o.request phase).cleanupSlots = a.cleanupSlots := by
    obtain ⟨small, held⟩ := List.getElem?_eq_some_iff.mp (get_cleanupSlots found)
    have same : a.cleanupSlots.attempts.set i (o.request.sessionId, phase.stage) = a.cleanupSlots.attempts := by
      rw [next, ← stored, ← held, List.set_getElem_self]
    simp only [cleanupSlots, setCleanup, List.map_set] at same ⊢
    rw [same]
  refine consistent_setCleanup consistent found (by rw [stored]; decide) ?_ ⟨rfl, rfl, rfl, rfl, rfl, rfl, rfl⟩ rfl
  rw [slots]
  exact consistent.cleanups

theorem consistent_failCleanup (consistent : Consistent sessions a) {o : CleanupAttempt}
    (found : a.cleanupAttempts[i]? = some o) (stored : o.phase.stage = .stored) (error : Thrown) :
    Consistent sessions (a.failCleanup i o.request error) := by
  refine consistent_setCleanup consistent found (by rw [stored]; decide) ?_ ⟨rfl, rfl, rfl, rfl, rfl, rfl, rfl⟩ rfl
  rw [failCleanup, slots_setCleanup]
  exact Slots.exclusive_finish consistent.cleanups (by rw [get_cleanupSlots found, stored])

theorem consistent_finishCleanup (consistent : Consistent sessions a) {o : CleanupAttempt}
    (found : a.cleanupAttempts[i]? = some o) (stored : o.phase.stage = .stored) :
    Consistent sessions (a.finishCleanup i o.request) := by
  have at_i : a.cleanupSlots.attempts[i]? = some (o.request.sessionId, .stored) := by rw [get_cleanupSlots found, stored]
  have slots : (a.finishCleanup i o.request).cleanupSlots = a.cleanupSlots.move o.request.sessionId i .spent none :=
    slots_setCleanup (a := { a with
      log := a.log ++ [.cleanupSucceeded o.request.sessionId]
      cleaned := Function.update a.cleaned o.request.sessionId true })
  have free := Slots.free_finish consistent.cleanups at_i
  have attempts : (a.finishCleanup i o.request).cleanupAttempts =
      a.cleanupAttempts.set i ⟨o.request, .settled (.ok ())⟩ := rfl
  have clean : (a.finishCleanup i o.request).cleaned = Function.update a.cleaned o.request.sessionId true := rfl
  exact {
    hangups := consistent.hangups
    cleanups := by
      rw [slots]
      exact Slots.exclusive_finish consistent.cleanups at_i
    ended := by
      intro sessionId
      simp [finishCleanup, setCleanup, enterCleanup, record, consistent.ended]
    cleaned := by
      intro sessionId
      by_cases same : sessionId = o.request.sessionId
      · simp [finishCleanup, setCleanup, enterCleanup, record, same]
      · simp [finishCleanup, setCleanup, enterCleanup, record, same, consistent.cleaned]
    uncleaned := by
      intro p there going
      rw [clean]
      by_cases same : p.request.sessionId = o.request.sessionId
      · rw [← slots, free_cleanups] at free
        exact (going (free p there same)).elim
      · rw [Function.update_of_ne same]
        rw [attempts] at there
        rcases List.mem_or_eq_of_mem_set there with before | rfl
        · exact consistent.uncleaned p before going
        · exact (same rfl).elim
    wasCleaned := by
      intro sessionId held
      rw [clean] at held
      rw [attempts]
      by_cases same : sessionId = o.request.sessionId
      · obtain ⟨small, -⟩ := List.getElem?_eq_some_iff.mp found
        exact ⟨⟨o.request, .settled (.ok ())⟩, List.mem_set small _, same.symm, rfl⟩
      · rw [Function.update_of_ne same] at held
        obtain ⟨p, there, sameSession, spent⟩ := consistent.wasCleaned sessionId held
        refine ⟨p, mem_set_of_ne _ found ?_ there, sameSession, spent⟩
        rintro rfl
        exact same sameSession.symm
    finished := consistent.finished
    free := consistent.free
    settled := consistent.settled
    about := consistent.about
    once := everywhere_snoc.mpr ⟨consistent.once, trivial⟩
    few := consistent.few }

end SessionAuthority

end Handrail.Realtime

import Handrail.Realtime.ClientSession
import Handrail.Js.OrderedMap
import Handrail.Concurrent.Slots
import Handrail.Protocol.StreamRules

/-!
# The authority over realtime voice sessions

`IdempotentRealtimeVoiceSessionAuthority`: a hangup terminates the tool calls of a session, ends the session and cleans it
up; a cleanup terminates the tool calls and cleans up. The promise of an attempt is entered in its table when the call of
`terminateSession` has returned, and taken out by the `finally` of the attempt.
-/

namespace Handrail.Realtime
open Js Concurrent Protocol

inductive RealtimeVoiceHangupReason where
  | clientRequest
  | sessionExpired
  | idleTimeout
  | policy
  | serverShutdown
  | failure
deriving DecidableEq, Repr

/-- A request that `parseRealtimeVoiceHangupRequest` has accepted; `hangup` throws at once for any other. -/
structure RealtimeVoiceHangupRequest where
  requestId : JsString
  idempotencyKey : JsString
  sessionId : JsString
  reason : RealtimeVoiceHangupReason
  signal : Nat
deriving DecidableEq, Repr

/-- A request that `parseRealtimeVoiceCleanupRequest` has accepted. -/
structure RealtimeVoiceCleanupRequest where
  sessionId : JsString
  signal : Nat
deriving DecidableEq, Repr

structure RealtimeVoiceTerminalResult where
  sessionId : JsString
  endedAt : JsString
deriving DecidableEq, Repr

inductive ClockReading where
  /-- A finite number: what `toISOString` prints of it, `none` when it is beyond the dates of the platform. -/
  | finite (iso : Option JsString)
  | notFinite
  | threw (error : Thrown)

/-- `ended_at` -/
def ClockReading.endedAt : ClockReading → Except Thrown JsString
  | .finite (some iso) => .ok iso
  | .finite none => .error (.value none)
  | .notFinite => .error (.operation .internalFailure)
  | .threw error => .error error

/-! ### Attempts -/

/-- What `cleanup` answers at once. -/
inductive CleanupReply where
  /-- The session was cleaned before. -/
  | cleaned
  | rejected (error : Thrown)
  /-- The promise of an attempt that was there. -/
  | joined (attempt : Nat)
  /-- The promise of a new attempt. -/
  | started (attempt : Nat)
deriving Inhabited

inductive HangupPhase where
  /-- `terminateSession` has been called and has not returned. -/
  | entered
  /-- Awaits `terminateSession`; without a tool bridge, `undefined`. -/
  | terminating
  /-- Awaits `endSession`. -/
  | ending
  /-- Awaits what `cleanup` has answered. -/
  | cleaning (reply : CleanupReply)
  | settled (result : Except Thrown RealtimeVoiceTerminalResult)

inductive CleanupPhase where
  | entered
  | terminating
  /-- Awaits `cleanupSession`. -/
  | cleaning
  | settled (result : Except Thrown Unit)

def HangupPhase.stage : HangupPhase → Stage
  | .entered => .entering
  | .settled _ => .spent
  | _ => .stored

def CleanupPhase.stage : CleanupPhase → Stage
  | .entered => .entering
  | .settled _ => .spent
  | _ => .stored

structure HangupAttempt where
  request : RealtimeVoiceHangupRequest
  phase : HangupPhase

structure CleanupAttempt where
  request : RealtimeVoiceCleanupRequest
  phase : CleanupPhase

inductive AuthorityEvent where
  | toolsTerminated (hangup : Nat)
  | endInvoked (hangup : Nat) (sessionId : JsString)
  | endSucceeded (sessionId : JsString)
  | cleanupInvoked (sessionId : JsString)
  | cleanupSucceeded (sessionId : JsString)
deriving DecidableEq, Repr

structure SessionAuthority where
  maximumTrackedSessions : Nat
  terminal : OrderedMap JsString RealtimeVoiceTerminalResult
  hangups : JsString → Option Nat
  ended : JsString → Bool
  cleaned : JsString → Bool
  cleanups : JsString → Option Nat
  idempotencySessions : JsString → Option JsString
  hangupAttempts : List HangupAttempt
  cleanupAttempts : List CleanupAttempt
  /-- The signals that have been aborted. -/
  aborted : List Nat
  log : List AuthorityEvent

/-- What `hangup` answers at once. -/
inductive HangupReply where
  | resolved (result : RealtimeVoiceTerminalResult)
  | rejected (error : Thrown)
  | joined (attempt : Nat)
  | started (attempt : Nat)

namespace SessionAuthority

def create (maximumTrackedSessions : Nat) : SessionAuthority where
  maximumTrackedSessions
  terminal := .empty
  hangups _ := none
  ended _ := false
  cleaned _ := false
  cleanups _ := none
  idempotencySessions _ := none
  hangupAttempts := []
  cleanupAttempts := []
  aborted := []
  log := []

def isAborted (a : SessionAuthority) (signal : Nat) : Bool := a.aborted.contains signal

def record (a : SessionAuthority) (event : AuthorityEvent) : SessionAuthority := { a with log := a.log ++ [event] }

/-! ### `cleanup` -/

/-- `cleanup` up to the call of `terminateSession`. -/
def cleanup (a : SessionAuthority) (request : RealtimeVoiceCleanupRequest) : SessionAuthority × CleanupReply :=
  if a.cleaned request.sessionId then (a, .cleaned)
  else
    match a.cleanups request.sessionId with
    | some attempt => (a, .joined attempt)
    | none =>
      if a.isAborted request.signal then (a, .rejected (.operation .cancelled))
      else
        ({ a with cleanupAttempts := a.cleanupAttempts ++ [⟨request, .entered⟩] }, .started a.cleanupAttempts.length)

def setCleanup (a : SessionAuthority) (attempt : Nat) (request : RealtimeVoiceCleanupRequest) (phase : CleanupPhase) :
    SessionAuthority := { a with cleanupAttempts := a.cleanupAttempts.set attempt ⟨request, phase⟩ }

/-- The entry of a session in `#cleanups` is set or deleted. -/
def enterCleanup (a : SessionAuthority) (sessionId : JsString) (entry : Option Nat) : SessionAuthority :=
  { a with cleanups := Function.update a.cleanups sessionId entry }

/-- The `catch` and the `finally` of a cleanup. -/
def failCleanup (a : SessionAuthority) (attempt : Nat) (request : RealtimeVoiceCleanupRequest) (error : Thrown) :
    SessionAuthority :=
  (a.setCleanup attempt request (.settled (.error (operationError error (a.isAborted request.signal))))).enterCleanup
    request.sessionId none

/-- `cleanupSession` has succeeded. -/
def finishCleanup (a : SessionAuthority) (attempt : Nat) (request : RealtimeVoiceCleanupRequest) : SessionAuthority :=
  let a := a.record (.cleanupSucceeded request.sessionId)
  ({ a with cleaned := Function.update a.cleaned request.sessionId true }.setCleanup attempt request
    (.settled (.ok ()))).enterCleanup request.sessionId none

/-! ### `hangup` -/

/-- `hangup` up to the call of `terminateSession`. -/
def hangup (a : SessionAuthority) (request : RealtimeVoiceHangupRequest) : SessionAuthority × HangupReply :=
  if (a.idempotencySessions request.idempotencyKey).any (· ≠ request.sessionId) then
    (a, .rejected (.operation .idempotencyConflict))
  else
    let a := { a with
      idempotencySessions := Function.update a.idempotencySessions request.idempotencyKey (some request.sessionId) }
    match a.terminal.get request.sessionId with
    | some result => (a, .resolved result)
    | none =>
      match a.hangups request.sessionId with
      | some attempt => (a, .joined attempt)
      | none =>
        if a.isAborted request.signal then (a, .rejected (.operation .cancelled))
        else ({ a with hangupAttempts := a.hangupAttempts ++ [⟨request, .entered⟩] }, .started a.hangupAttempts.length)

def setHangup (a : SessionAuthority) (attempt : Nat) (request : RealtimeVoiceHangupRequest) (phase : HangupPhase) :
    SessionAuthority := { a with hangupAttempts := a.hangupAttempts.set attempt ⟨request, phase⟩ }

/-- The entry of a session in `#hangups` is set or deleted. -/
def enterHangup (a : SessionAuthority) (sessionId : JsString) (entry : Option Nat) : SessionAuthority :=
  { a with hangups := Function.update a.hangups sessionId entry }

/-- The `catch` and the `finally` of a hangup. -/
def failHangup (a : SessionAuthority) (attempt : Nat) (request : RealtimeVoiceHangupRequest) (error : Thrown) :
    SessionAuthority :=
  (a.setHangup attempt request (.settled (.error (operationError error (a.isAborted request.signal))))).enterHangup
    request.sessionId none

/-- The hangup calls `cleanup` and awaits its answer. -/
def awaitCleanup (a : SessionAuthority) (attempt : Nat) (request : RealtimeVoiceHangupRequest) : SessionAuthority :=
  let (a, reply) := a.cleanup ⟨request.sessionId, request.signal⟩
  a.setHangup attempt request (.cleaning reply)

/-- The oldest terminal results are forgotten until few enough are left, at most `count` of them. -/
def forgetOldest : Nat → SessionAuthority → SessionAuthority
  | 0, a => a
  | count + 1, a =>
    if a.terminal.size ≤ a.maximumTrackedSessions then a
    else
      match a.terminal.oldest with
      | none => a
      | some oldest => forgetOldest count { a with
          terminal := a.terminal.delete oldest
          ended := Function.update a.ended oldest false
          cleaned := Function.update a.cleaned oldest false
          idempotencySessions := fun key => (a.idempotencySessions key).filter (· ≠ oldest) }

def rememberTerminal (a : SessionAuthority) (result : RealtimeVoiceTerminalResult) : SessionAuthority :=
  let a := { a with terminal := a.terminal.set result.sessionId result }
  forgetOldest a.terminal.size a

def finishHangup (a : SessionAuthority) (attempt : Nat) (request : RealtimeVoiceHangupRequest) (reading : ClockReading) :
    SessionAuthority :=
  match reading.endedAt with
  | .error error => a.failHangup attempt request error
  | .ok endedAt =>
    let result : RealtimeVoiceTerminalResult := ⟨request.sessionId, endedAt⟩
    ((a.rememberTerminal result).setHangup attempt request (.settled (.ok result))).enterHangup request.sessionId none

/-- What the promise that `cleanup` has answered comes to, once it has settled. -/
def outcome (a : SessionAuthority) : CleanupReply → Option (Except Thrown Unit)
  | .cleaned => some (.ok ())
  | .rejected error => some (.error error)
  | .joined attempt | .started attempt =>
    match a.cleanupAttempts[attempt]? with
    | some ⟨_, .settled result⟩ => some result
    | _ => none

end SessionAuthority

/-! ### Runs -/

/-- What happens to the authority. A request can come from within a call of `terminateSession`. -/
inductive AuthorityAction where
  | hangup (request : RealtimeVoiceHangupRequest)
  | cleanup (request : RealtimeVoiceCleanupRequest)
  /-- The call of `terminateSession` in a hangup returns; without a tool bridge there is none. -/
  | hangupReturned (attempt : Nat)
  | hangupThrew (attempt : Nat) (error : Thrown)
  /-- The promise of `terminateSession` in a hangup resolves. -/
  | hangupTerminated (attempt : Nat)
  | endSucceeded (attempt : Nat)
  /-- `terminateSession` or `endSession` fails in a hangup. -/
  | hangupFailed (attempt : Nat) (error : Thrown)
  /-- A hangup goes on after `cleanup`. -/
  | hangupResumed (attempt : Nat) (reading : ClockReading)
  | cleanupReturned (attempt : Nat)
  | cleanupThrew (attempt : Nat) (error : Thrown)
  | cleanupTerminated (attempt : Nat)
  | cleanupSucceeded (attempt : Nat)
  /-- `terminateSession` or `cleanupSession` fails in a cleanup. -/
  | cleanupFailed (attempt : Nat) (error : Thrown)
  | abort (signal : Nat)

namespace SessionAuthority

/-- One step of a hangup that is at `phase`. -/
def stepHangup (a : SessionAuthority) (attempt : Nat) (request : RealtimeVoiceHangupRequest) :
    HangupPhase → AuthorityAction → SessionAuthority
  | .entered, .hangupReturned _ => (a.setHangup attempt request .terminating).enterHangup request.sessionId (some attempt)
  | .entered, .hangupThrew _ error =>
    -- The `finally` comes first, and then `hangup` enters the promise.
    (a.failHangup attempt request error).enterHangup request.sessionId (some attempt)
  | .terminating, .hangupTerminated _ =>
    let a := a.record (.toolsTerminated attempt)
    if a.ended request.sessionId then a.awaitCleanup attempt request
    else (a.record (.endInvoked attempt request.sessionId)).setHangup attempt request .ending
  | .terminating, .hangupFailed _ error => a.failHangup attempt request error
  | .ending, .endSucceeded _ =>
    let a := a.record (.endSucceeded request.sessionId)
    { a with ended := Function.update a.ended request.sessionId true }.awaitCleanup attempt request
  | .ending, .hangupFailed _ error => a.failHangup attempt request error
  | .cleaning reply, .hangupResumed _ reading =>
    match a.outcome reply with
    | none => a
    | some (.error error) => a.failHangup attempt request error
    | some (.ok ()) => a.finishHangup attempt request reading
  | _, _ => a

/-- One step of a cleanup that is at `phase`. -/
def stepCleanup (a : SessionAuthority) (attempt : Nat) (request : RealtimeVoiceCleanupRequest) :
    CleanupPhase → AuthorityAction → SessionAuthority
  | .entered, .cleanupReturned _ => (a.setCleanup attempt request .terminating).enterCleanup request.sessionId (some attempt)
  | .entered, .cleanupThrew _ error =>
    (a.failCleanup attempt request error).enterCleanup request.sessionId (some attempt)
  | .terminating, .cleanupTerminated _ =>
    (a.record (.cleanupInvoked request.sessionId)).setCleanup attempt request .cleaning
  | .terminating, .cleanupFailed _ error => a.failCleanup attempt request error
  | .cleaning, .cleanupSucceeded _ => a.finishCleanup attempt request
  | .cleaning, .cleanupFailed _ error => a.failCleanup attempt request error
  | _, _ => a

/-- A call of `terminateSession` has not returned. -/
def isCalling (a : SessionAuthority) : Bool :=
  a.hangupAttempts.any (·.phase.stage = .entering) || a.cleanupAttempts.any (·.phase.stage = .entering)

def advanceHangup (a : SessionAuthority) (attempt : Nat) (action : AuthorityAction) : SessionAuthority :=
  match a.hangupAttempts[attempt]? with
  | some o => a.stepHangup attempt o.request o.phase action
  | none => a

def advanceCleanup (a : SessionAuthority) (attempt : Nat) (action : AuthorityAction) : SessionAuthority :=
  match a.cleanupAttempts[attempt]? with
  | some o => a.stepCleanup attempt o.request o.phase action
  | none => a

def step (a : SessionAuthority) (action : AuthorityAction) : SessionAuthority :=
  match action with
  | .hangup request => (a.hangup request).1
  | .cleanup request => (a.cleanup request).1
  | .abort signal => { a with aborted := signal :: a.aborted }
  | .hangupReturned attempt | .hangupThrew attempt _ => a.advanceHangup attempt action
  | .cleanupReturned attempt | .cleanupThrew attempt _ => a.advanceCleanup attempt action
  | .hangupTerminated attempt | .endSucceeded attempt | .hangupFailed attempt _ | .hangupResumed attempt _ =>
    if a.isCalling then a else a.advanceHangup attempt action
  | .cleanupTerminated attempt | .cleanupSucceeded attempt | .cleanupFailed attempt _ =>
    if a.isCalling then a else a.advanceCleanup attempt action

def run (a : SessionAuthority) (actions : List AuthorityAction) : SessionAuthority := actions.foldl step a

end SessionAuthority

end Handrail.Realtime

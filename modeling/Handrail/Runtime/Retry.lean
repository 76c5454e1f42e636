import Handrail.Js.ExactNumber
import Handrail.Conversation.Vocabulary

/-!
# `retry.ts`

Bounded retries. What the clock, the random source, the signal, the hooks, the operation and `sleep` give to one attempt is a
`RetryRound`; a run takes one round for each attempt.
-/

namespace Handrail.Runtime
open Js Conversation

structure RetryFailure where
  retryable : Bool
  reasonCategory : RetryReasonCategory
  retryAfterMs : Option ExactNumber

structure RetryPolicy where
  maximumAttempts : ExactNumber
  maximumElapsedMs : ExactNumber
  initialDelayMs : ExactNumber
  backoffMultiplier : ExactNumber
  maximumDelayMs : ExactNumber
  jitterRatio : ExactNumber
  maximumRetryAfterMs : ExactNumber
deriving DecidableEq

structure RetryPolicyOptions where
  maximumAttempts : Option ExactNumber
  maximumElapsedMs : Option ExactNumber
  initialDelayMs : Option ExactNumber
  backoffMultiplier : Option ExactNumber
  maximumDelayMs : Option ExactNumber
  jitterRatio : Option ExactNumber
  maximumRetryAfterMs : Option ExactNumber

/-- A `TypeError` with its message. -/
abbrev RetryCheck := Except String

namespace RetryPolicy

/-- `DEFAULT_POLICY` -/
def defaults : RetryPolicy where
  maximumAttempts := .ofRat 3
  maximumElapsedMs := .ofRat 30000
  initialDelayMs := .ofRat 250
  backoffMultiplier := .ofRat 2
  maximumDelayMs := .ofRat 5000
  jitterRatio := .ofRat (1 / 5)
  maximumRetryAfterMs := .ofRat 30000

/-- `if (refused) throw new TypeError(message)` -/
def refuse (refused : Bool) (message : String) : RetryCheck Unit := if refused then .error message else .ok ()

def positiveSafeInteger (value : ExactNumber) (name : String) : RetryCheck Unit :=
  refuse (!value.isSafeInteger || value.lt (.ofRat 1)) (name ++ " must be a positive safe integer")

def nonnegativeFinite (value : ExactNumber) (name : String) : RetryCheck Unit :=
  refuse (value.value?.isNone || value.lt (.ofRat 0)) (name ++ " must be a non-negative finite number")

def validatePolicy (policy : RetryPolicy) : RetryCheck Unit := do
  positiveSafeInteger policy.maximumAttempts "maximumAttempts"
  nonnegativeFinite policy.maximumElapsedMs "maximumElapsedMs"
  nonnegativeFinite policy.initialDelayMs "initialDelayMs"
  refuse (policy.backoffMultiplier.value?.isNone || policy.backoffMultiplier.lt (.ofRat 1))
    "backoffMultiplier must be a finite number of at least 1"
  nonnegativeFinite policy.maximumDelayMs "maximumDelayMs"
  refuse (policy.jitterRatio.value?.isNone || policy.jitterRatio.lt (.ofRat 0) || (ExactNumber.ofRat 1).lt policy.jitterRatio)
    "jitterRatio must be a finite number from 0 to 1"
  nonnegativeFinite policy.maximumRetryAfterMs "maximumRetryAfterMs"

def createRetryPolicy (options : RetryPolicyOptions) : RetryCheck RetryPolicy := do
  let policy : RetryPolicy :=
    { maximumAttempts := options.maximumAttempts.getD defaults.maximumAttempts
      maximumElapsedMs := options.maximumElapsedMs.getD defaults.maximumElapsedMs
      initialDelayMs := options.initialDelayMs.getD defaults.initialDelayMs
      backoffMultiplier := options.backoffMultiplier.getD defaults.backoffMultiplier
      maximumDelayMs := options.maximumDelayMs.getD defaults.maximumDelayMs
      jitterRatio := options.jitterRatio.getD defaults.jitterRatio
      maximumRetryAfterMs := options.maximumRetryAfterMs.getD defaults.maximumRetryAfterMs }
  validatePolicy policy
  .ok policy

/-- The delay before the next attempt; `random` is what the random source gives. -/
def retryDelay (policy : RetryPolicy) (failedAttempt : Nat) (random : ExactNumber) (retryAfterMs : Option ExactNumber) :
    RetryCheck ExactNumber :=
  if failedAttempt < 1 ∨ JsNumber.maxSafeInteger < failedAttempt then
    .error "failedAttempt must be a positive safe integer"
  else
    let exponential := policy.maximumDelayMs.min
      (policy.initialDelayMs.mul (policy.backoffMultiplier.pow (failedAttempt - 1)))
    if random.value?.isNone || random.lt (.ofRat 0) || random.ge (.ofRat 1) then
      .error "RetryPolicy.random must return a number in [0, 1)"
    else
      let factor := (ExactNumber.ofRat 1).add (((random.mul (.ofRat 2)).sub (.ofRat 1)).mul policy.jitterRatio)
      let jittered := (ExactNumber.ofRat 0).max (policy.maximumDelayMs.min (exponential.mul factor))
      let normalizedHint := match retryAfterMs with
        | none => .ofRat 0
        | some hint => policy.maximumRetryAfterMs.min
            ((ExactNumber.ofRat 0).max (if hint.value?.isSome then hint else .ofRat 0))
      .ok (jittered.max normalizedHint).ceil

end RetryPolicy

/-! ### One run -/

inductive OperationOutcome where
  | success
  | failure (failure : RetryFailure)
  /-- The operation rejects. -/
  | rejected

structure RetryRound where
  abortedBefore : Bool
  attemptNow : ExactNumber
  /-- Whether `onAttemptStarted` resolves. -/
  startedHook : Bool
  abortedAfterStarted : Bool
  outcome : OperationOutcome
  outcomeNow : ExactNumber
  random : ExactNumber
  /-- Whether `onRetryExhausted` and `onRetryScheduled` resolve. -/
  exhaustedHook : Bool
  scheduledHook : Bool
  abortedAfterScheduled : Bool
  sleeps : Bool
  abortedAfterSleep : Bool

inductive RetryCall where
  | started (attempt : Nat) (elapsedMs : ExactNumber)
  | operation (attempt : Nat) (elapsedMs : ExactNumber)
  | scheduled (attempt nextAttempt : Nat) (elapsedMs : ExactNumber) (reasonCategory : RetryReasonCategory)
      (delayMs : ExactNumber)
  | exhausted (attempt : Nat) (elapsedMs : ExactNumber) (reasonCategory : RetryReasonCategory)
      (exhaustionReason : RetryExhaustionReason)
  | sleep (delayMs : ExactNumber)
deriving DecidableEq

/-- `none` for the reason is `non_retryable`. -/
inductive RetryEnd where
  | succeeded (attempts : Nat) (elapsedMs : ExactNumber)
  | failed (attempts : Nat) (elapsedMs : ExactNumber) (reason : Option RetryExhaustionReason)
  | threw

abbrev RetryProgress := List RetryCall × Option RetryEnd

/-- `elapsed` -/
def elapsedSince (now startedAt : ExactNumber) : RetryCheck ExactNumber :=
  let value := now.sub startedAt
  if value.value?.isNone then .error "RetryPolicy.now must return a finite number"
  else .ok ((ExactNumber.ofRat 0).max value)

def exhaustRetry (attempt : Nat) (elapsedMs : ExactNumber) (failure : RetryFailure) (reason : RetryExhaustionReason)
    (round : RetryRound) : RetryProgress :=
  ([.exhausted attempt elapsedMs failure.reasonCategory reason],
    some (if round.exhaustedHook then .failed attempt elapsedMs (some reason) else .threw))

/-- The part of the loop from `retryDelay` on. -/
def scheduleRetry (policy : RetryPolicy) (attempt : Nat) (elapsedMs : ExactNumber) (failure : RetryFailure)
    (round : RetryRound) : RetryProgress :=
  match policy.retryDelay attempt round.random failure.retryAfterMs with
  | .error _ => ([], some .threw)
  | .ok delayMs =>
    if elapsedMs.ge policy.maximumElapsedMs || (policy.maximumElapsedMs.sub elapsedMs).lt delayMs then
      exhaustRetry attempt elapsedMs failure .maximumElapsedTime round
    else
      let scheduled := .scheduled attempt (attempt + 1) elapsedMs failure.reasonCategory delayMs
      if !round.scheduledHook || round.abortedAfterScheduled then ([scheduled], some .threw)
      else ([scheduled, .sleep delayMs], if round.sleeps && !round.abortedAfterSleep then none else some .threw)

def failAttempt (policy : RetryPolicy) (attempt : Nat) (elapsedMs : ExactNumber) (failure : RetryFailure)
    (round : RetryRound) : RetryProgress :=
  if !failure.retryable then ([], some (.failed attempt elapsedMs none))
  else if (ExactNumber.ofRat attempt).ge policy.maximumAttempts then
    exhaustRetry attempt elapsedMs failure .maximumAttempts round
  else scheduleRetry policy attempt elapsedMs failure round

def settleAttempt (policy : RetryPolicy) (startedAt : ExactNumber) (attempt : Nat) (round : RetryRound) : RetryProgress :=
  match round.outcome with
  | .rejected => ([], some .threw)
  | .success =>
    match elapsedSince round.outcomeNow startedAt with
    | .error _ => ([], some .threw)
    | .ok elapsedMs => ([], some (.succeeded attempt elapsedMs))
  | .failure failure =>
    match elapsedSince round.outcomeNow startedAt with
    | .error _ => ([], some .threw)
    | .ok elapsedMs => failAttempt policy attempt elapsedMs failure round

def attemptOnce (policy : RetryPolicy) (startedAt : ExactNumber) (attempt : Nat) (round : RetryRound) : RetryProgress :=
  if round.abortedBefore then ([], some .threw)
  else match elapsedSince round.attemptNow startedAt with
    | .error _ => ([], some .threw)
    | .ok elapsedMs =>
      if !round.startedHook || round.abortedAfterStarted then ([.started attempt elapsedMs], some .threw)
      else
        let settled := settleAttempt policy startedAt attempt round
        (.started attempt elapsedMs :: .operation attempt elapsedMs :: settled.1, settled.2)

def retryLoop (policy : RetryPolicy) (startedAt : ExactNumber) : Nat → List RetryRound → RetryProgress
  | _, [] => ([], none)
  | attempt, round :: rest =>
    let once := attemptOnce policy startedAt attempt round
    match once.2 with
    | some ending => (once.1, some ending)
    | none =>
      let later := retryLoop policy startedAt (attempt + 1) rest
      (once.1 ++ later.1, later.2)

def executeWithRetry (policy : RetryPolicy) (startedAt : ExactNumber) (rounds : List RetryRound) :
    RetryCheck RetryProgress := do
  policy.validatePolicy
  .ok (retryLoop policy startedAt 1 rounds)

end Handrail.Runtime

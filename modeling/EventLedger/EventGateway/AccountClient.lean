import EventLedger.EventGateway.EventService
import Mathlib.Algebra.Order.Ring.Rat

namespace EventLedger.EventGateway

/-- The breaker of the process counts failures and remembers the last time it opened. -/
structure CircuitBreaker where
  failures : Nat
  openedAt : Option Rat
  deriving DecidableEq

namespace CircuitBreaker

def closed : CircuitBreaker := ⟨0, none⟩

/-- An open breaker lets calls through again after its recovery time. -/
def allow (settings : Settings) (breaker : CircuitBreaker) (now : Rat) : Bool :=
  match breaker.openedAt with
  | none => true
  | some openedAt => decide (settings.circuitBreakerRecoverySeconds ≤ now - openedAt)

def success (_ : CircuitBreaker) : CircuitBreaker := closed

/-- A failure opens the breaker from the threshold on. -/
def failure (settings : Settings) (breaker : CircuitBreaker) (now : Rat) : CircuitBreaker :=
  let failures := breaker.failures + 1
  { failures := failures
    openedAt :=
      if settings.circuitBreakerFailureThreshold ≤ failures then some now else breaker.openedAt }

end CircuitBreaker

/-- One HTTP attempt returns a response, raises a caught exception or raises another one. -/
inductive AttemptOutcome where
  | response (response : Response)
  | timeout (message : String)
  | connectError (message : String)
  | raised

/-- A call of the client is at one attempt, asleep after one, or finished. -/
inductive ClientRequest where
  | attempting (attempt : Nat)
  | sleeping (attempt : Nat)
  | finished (outcome : CallOutcome)

namespace ClientRequest

/-- The breaker is asked once, before the first attempt. -/
def start (settings : Settings) (breaker : CircuitBreaker) (now : Rat) : ClientRequest :=
  if breaker.allow settings now then
    if 0 < settings.accountServiceMaxAttempts then .attempting 0
    else .finished (.unavailable "None")
  else .finished (.unavailable "account service circuit is open")

/-- These responses count as failures of the attempt. -/
def transient (statusCode : Nat) : Bool := statusCode == 502 || statusCode == 503 || statusCode == 504

/-- A failed attempt is followed by a sleep unless it was the last one. -/
def failed (settings : Settings) (breaker : CircuitBreaker) (attempt : Nat) (now : Rat)
    (message : String) : CircuitBreaker × ClientRequest :=
  (breaker.failure settings now,
    if settings.accountServiceMaxAttempts ≤ attempt + 1 then .finished (.unavailable message)
    else .sleeping attempt)

/-- The end of an attempt updates the breaker and the call. -/
def attemptEnds (settings : Settings) (breaker : CircuitBreaker) (attempt : Nat) (now : Rat) :
    AttemptOutcome → CircuitBreaker × ClientRequest
  | .response response =>
      if transient response.statusCode then
        failed settings breaker attempt now "transient downstream error"
      else (breaker.success, .finished (.response response))
  | .timeout message | .connectError message => failed settings breaker attempt now message
  | .raised => (breaker, .finished .raised)

end ClientRequest
end EventLedger.EventGateway

import SecureGateway.Foundation.Pool
import SecureGateway.Gateway.Raised
import Mathlib.Logic.Function.Basic

/-!
# The upstream executor

`ResilientUpstreamExecutor` of `gateway/app/proxy/executor.py`, and the pool of its calls over
the breakers of all services. The breaker's methods never suspend; a call suspends while it
awaits the client and while it sleeps before a retry.
-/
namespace SecureGateway.Resilience

open Interleaving

inductive UpstreamResilienceEvent where
  | retry
  | circuitOpen
  | circuitRejected
  | circuitRecovered
  deriving DecidableEq, Repr

def UpstreamResilienceEvent.value : UpstreamResilienceEvent → String
  | .retry => "retry"
  | .circuitOpen => "circuit_open"
  | .circuitRejected => "circuit_rejected"
  | .circuitRecovered => "circuit_recovered"

/-- The arguments of `execute`, which it hands to `client.request` unchanged. -/
structure UpstreamRequest where
  serviceName : String
  method : String
  url : String
  params : List (String × String)
  headers : List (String × String)
  content : List UInt8
  deriving DecidableEq, Repr

structure UpstreamResponse where
  statusCode : ℤ
  headers : List (String × String)
  content : List UInt8
  deriving DecidableEq, Repr

structure UpstreamExecutionResult where
  response : UpstreamResponse
  attempts : ℕ
  deriving DecidableEq, Repr

/-- The ways `client.request` ends without a response. `other` is every exception outside
`httpx.RequestError`, such as `httpx.InvalidURL` or `UnicodeEncodeError`. -/
inductive RequestFailure where
  | requestError (error : RequestError)
  | cancelled
  | other (className : String)
  deriving DecidableEq, Repr

inductive Wakeup where
  | completed
  | cancelled
  deriving DecidableEq, Repr

inductive UpstreamOp where
  | beforeRequest (service : String)
  | record (service : String) (permit : CircuitPermit) (settlement : Settlement)
  | onEvent (service : String) (event : UpstreamResilienceEvent)
  /-- `client.request` is called. -/
  | request (q : UpstreamRequest)
  /-- The call to `client.request` is awaited. -/
  | response
  | sleep (delay : ℚ)
  deriving DecidableEq

/-- The callback's reply names the exception it raised, if it did. -/
abbrev UpstreamOp.Reply : UpstreamOp → Type
  | .beforeRequest _ => Except CircuitOpenError CircuitPermit
  | .record _ _ _ => Bool
  | .onEvent _ _ => Option String
  | .request _ => Unit
  | .response => Except RequestFailure UpstreamResponse
  | .sleep _ => Wakeup

abbrev upstream : Signature := ⟨UpstreamOp, UpstreamOp.Reply⟩

abbrev invoke (op : UpstreamOp) : Prog upstream Raised op.Reply := Prog.call (S := upstream) op

/-- Where a call gives up control to the event loop. -/
def UpstreamOp.suspends : UpstreamOp → Bool
  | .response | .sleep _ => true
  | _ => false

structure ResilientUpstreamExecutor where
  settings : UpstreamResilienceSettings
  /-- The service names of the `CircuitBreakerRegistry`. -/
  serviceNames : List String
  /-- Whether `on_event` is given. -/
  hasCallback : Bool
  /-- `str.upper`. -/
  upper : String → String

namespace ResilientUpstreamExecutor

def safeRetryMethods : List String := ["GET", "HEAD", "OPTIONS"]

variable (x : ResilientUpstreamExecutor)

def methodIsRetryable (method : String) : Bool := x.upper method ∈ safeRetryMethods

def transportErrorIsRetryable (method : String) (error : RequestError) : Bool :=
  if x.methodIsRetryable method then error = .connectError ∨ error = .connectTimeout else false

def transportErrorCountsForCircuit (error : RequestError) : Bool :=
  if error = .poolTimeout then false else true

def responseCountsForCircuitFailure (statusCode : ℤ) : Bool :=
  500 ≤ statusCode ∧ statusCode ≤ 599

def emitEvent (service : String) (event : UpstreamResilienceEvent) : Prog upstream Raised Unit :=
  if x.hasCallback then do
    -- An exception of the callback is swallowed.
    let _ ← invoke (.onEvent service event)
    pure ()
  else pure ()

/-- `_record_failure`, `_record_neutral` and `_record_success`: the transition, if there is
one, is announced after it. -/
def settle (service : String) (permit : CircuitPermit) (settlement : Settlement)
    (event : UpstreamResilienceEvent) : Prog upstream Raised Unit := do
  let changed ← invoke (.record service permit settlement)
  if changed then x.emitEvent service event else pure ()

def recordFailure (service : String) (permit : CircuitPermit) : Prog upstream Raised Unit :=
  x.settle service permit .failure .circuitOpen

def recordNeutral (service : String) (permit : CircuitPermit) : Prog upstream Raised Unit :=
  x.settle service permit .neutral .circuitOpen

def recordSuccess (service : String) (permit : CircuitPermit) : Prog upstream Raised Unit :=
  x.settle service permit .success .circuitRecovered

def retryDelay (failedAttempt : ℕ) : ℚ :=
  min (x.settings.retryBaseDelaySeconds * 2 ^ (failedAttempt - 1)) 2

/-- `await self._sleep(delay)`, entered only for a positive delay. -/
def pause (delay : ℚ) : Prog upstream Raised Unit :=
  if delay > 0 then do
    let wakeup ← invoke (.sleep delay)
    match wakeup with
    | .completed => pure ()
    | .cancelled => throw .cancelled
  else pure ()

/-- The `while` loop, with `remaining` attempts left after the first `attempts`. -/
def attemptLoop (q : UpstreamRequest) (permit : CircuitPermit) :
    (remaining attempts : ℕ) → Prog upstream Raised UpstreamExecutionResult
  | 0, _ => throw (.runtimeError "Upstream retry loop exited without a result.")
  | remaining + 1, attempts => do
    let _ ← invoke (.request q)
    let reply ← invoke .response
    match reply with
    | .error .cancelled => throw .cancelled
    | .error (.other className) => throw (.other className)
    | .error (.requestError error) =>
      if 0 < remaining ∧ x.transportErrorIsRetryable q.method error then do
        x.emitEvent q.serviceName .retry
        pause (x.retryDelay (attempts + 1))
        attemptLoop q permit remaining (attempts + 1)
      else do
        if transportErrorCountsForCircuit error then x.recordFailure q.serviceName permit
          else x.recordNeutral q.serviceName permit
        throw (.requestError error)
    | .ok response => do
      if responseCountsForCircuitFailure response.statusCode then
          x.recordFailure q.serviceName permit
        else x.recordSuccess q.serviceName permit
      pure ⟨response, attempts + 1⟩

def maxAttempts (permit : CircuitPermit) : ℕ :=
  if permit.halfOpenProbe then 1 else x.settings.maxAttempts

/-- What `execute` does with an admitted call. -/
def admitted (q : UpstreamRequest) (permit : CircuitPermit) :
    Prog upstream Raised UpstreamExecutionResult :=
  (x.attemptLoop q permit (x.maxAttempts permit) 0).tryCatch fun
    | .cancelled => do
      x.recordNeutral q.serviceName permit
      throw .cancelled
    | error => throw error

def execute (q : UpstreamRequest) : Prog upstream Raised UpstreamExecutionResult :=
  if q.serviceName ∈ x.serviceNames then do
    let admission ← invoke (.beforeRequest q.serviceName)
    match admission with
    | .error error => do
      x.emitEvent q.serviceName .circuitRejected
      throw (.circuitOpen error)
    | .ok permit => x.admitted q permit
  else throw (.lookupError s!"No circuit breaker exists for service: {q.serviceName}")

end ResilientUpstreamExecutor

/-- The circuits and the monotonic clock of the process. -/
structure Circuits where
  breaker : String → ServiceCircuitBreaker
  clock : ℚ

namespace Circuits

/-- `CircuitBreakerRegistry(...)`. -/
def fresh (clock : ℚ) : Circuits := ⟨fun _ => .initial, clock⟩

def set (c : Circuits) (service : String) (b : ServiceCircuitBreaker) : Circuits :=
  { c with breaker := Function.update c.breaker service b }

/-- The breakers answer as their methods compute; the client and the loop answer as they like. -/
def respond (settings : UpstreamResilienceSettings) (c : Circuits) :
    (op : UpstreamOp) → op.Reply → Option Circuits
  | .beforeRequest service, r =>
    let result := (c.breaker service).beforeRequest settings c.clock
    if result.1 = r then some (c.set service result.2) else none
  | .record service permit settlement, r =>
    let result := (c.breaker service).record settings c.clock permit settlement
    if result.1 = r then some (c.set service result.2) else none
  | .onEvent _ _, _ | .request _, _ | .response, _ | .sleep _, _ => some c

end Circuits

/-- Concurrent calls of `execute`. A tick moves the clock to the given time, never back. -/
abbrev executorSystem (x : ResilientUpstreamExecutor) : System where
  sig := upstream
  World := Circuits
  Request := UpstreamRequest
  Failure := Raised
  Result := UpstreamExecutionResult
  Tick := ℚ
  handler := x.execute
  respond := Circuits.respond x.settings
  advance t c := { c with clock := max c.clock t }

end SecureGateway.Resilience

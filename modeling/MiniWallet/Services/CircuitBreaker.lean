import MiniWallet.Server.Operations

/-!
# Circuit breaker

The coroutines of the circuit breaker. Its state is in Redis, so between two of its commands any
other call can change it.
-/

namespace MiniWallet

open Program

/-- The parameters of a circuit breaker. -/
structure CircuitBreaker where
  failureThreshold : ℤ := 3
  cooldownSeconds : ℤ := 30

/-- `_PROBE_TTL_SECONDS`. -/
def probeTtlSeconds : ℤ := 60

namespace CircuitBreaker

variable (cb : CircuitBreaker)

/-- The cooldown has elapsed since the last failure, or no failure is recorded. -/
def cooldownElapsed : Program Bool := do
  match ← getLastFailureAt with
  | none => pure true
  | some lastFailure =>
      let at_ ← now
      pure (decide (cb.cooldownSeconds * 1000000 ≤ at_ - lastFailure))

/-- Whether a new call can proceed. -/
def isCallAllowed : Program Bool := do
  match (← getState).getD .closed with
  | .closed => pure true
  | .open => cb.cooldownElapsed
  | .halfOpen =>
      let probeActive ← probeExists
      pure (!probeActive)

/-- Decide whether a call goes through, and claim the probe slot if it needs one. -/
def enter : Program Unit := do
  match (← getState).getD .closed with
  | .closed => pure ()
  | .open =>
      if ← cb.cooldownElapsed then
        let claimed ← claimProbe probeTtlSeconds
        -- the claim fails if another call was first, or if the circuit is no longer open
        if claimed then pure () else throw .circuitOpen
      else throw .circuitOpen
  | .halfOpen =>
      let probeActive ← probeExists
      if probeActive then throw .circuitOpen
      else
        -- between the two commands another call can set the key
        let claimed ← setProbe probeTtlSeconds
        if claimed then pure () else throw .circuitOpen

/-- `_on_success`. -/
def onSuccess : Program Unit := recordSuccess

/-- `_on_failure`. -/
def onFailure : Program Unit := do
  let at_ ← now
  let _ ← recordFailure cb.failureThreshold at_
  pure ()

/-- Execute `fn` through the circuit breaker. -/
def call {α : Type} (fn : Program α) : Program α := do
  cb.enter
  try
    let result ← fn
    onSuccess
    pure result
  catch
    | .railError code =>
        cb.onFailure
        throw (.railError code)
    | e => throw e

end CircuitBreaker

end MiniWallet

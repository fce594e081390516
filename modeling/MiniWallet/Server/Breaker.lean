import MiniWallet.Schema.Values

/-!
# The circuit breaker's keys in Redis

The state of the circuit breaker lives in four Redis keys, and every access to them is one Redis
command: a `GET`, an `EXISTS`, a `SET NX`, or one of three Lua scripts that run atomically.
`BreakerCommand.reply` and `BreakerCommand.effect` are these commands.
-/

namespace MiniWallet

/-- The states of the circuit. -/
inductive CircuitState
  | closed
  | open
  | halfOpen
deriving DecidableEq, Repr

/-- The four keys of the circuit breaker. A key that is absent is `none`. -/
structure Breaker where
  /-- `circuit_breaker:state`. -/
  state : Option CircuitState := none
  /-- `circuit_breaker:failure_count`. -/
  failureCount : Option ℤ := none
  /-- `circuit_breaker:last_failure_at`. -/
  lastFailureAt : Option Time := none
  /-- `circuit_breaker:probe_active`, as the instant at which it expires. -/
  probeActive : Option Time := none
deriving DecidableEq, Repr

/-- The commands that the circuit breaker sends to Redis. -/
inductive BreakerCommand
  /-- `GET` of the state. -/
  | getState
  /-- `GET` of the last failure. -/
  | getLastFailureAt
  /-- `EXISTS` of the probe. -/
  | probeExists
  /-- The script that claims the probe slot of an open circuit. -/
  | claimProbe (ttl : ℤ)
  /-- `SET NX` of the probe. -/
  | setProbe (ttl : ℤ)
  /-- The script that records a success. -/
  | recordSuccess
  /-- The script that records a failure. -/
  | recordFailure (threshold : ℤ) (now : Time)
deriving DecidableEq, Repr

namespace BreakerCommand

/-- The type of a command's reply. -/
def Reply : BreakerCommand → Type
  | getState => Option CircuitState
  | getLastFailureAt => Option Time
  | probeExists => Bool
  | claimProbe _ => Bool
  | setProbe _ => Bool
  | recordSuccess => Unit
  | recordFailure _ _ => CircuitState

end BreakerCommand

namespace Breaker

/-- The probe key exists at instant `clock`. -/
def probing (b : Breaker) (clock : Time) : Bool :=
  match b.probeActive with
  | some expiry => clock < expiry
  | none => false

/-- The claim script gives the probe slot to its caller. -/
def claimable (b : Breaker) (clock : Time) : Bool :=
  b.state = some .open && !b.probing clock

end Breaker

namespace BreakerCommand

/-- What the command answers at instant `clock`. -/
def reply (b : Breaker) (clock : Time) : (c : BreakerCommand) → c.Reply
  | getState => b.state
  | getLastFailureAt => b.lastFailureAt
  | probeExists => b.probing clock
  | claimProbe _ => b.claimable clock
  | setProbe _ => !b.probing clock
  | recordSuccess => ()
  | recordFailure threshold _ =>
      if b.state = some .halfOpen then .open
      else if threshold ≤ b.failureCount.getD 0 + 1 then .open
      else b.state.getD .closed

/-- The keys after the command. Lifetimes are in seconds. -/
def effect (b : Breaker) (clock : Time) : BreakerCommand → Breaker
  | getState | getLastFailureAt | probeExists => b
  | claimProbe ttl =>
      -- the script: `SET NX EX`, and only when the circuit is open
      if b.claimable clock then
        { b with state := some .halfOpen, probeActive := some (clock + ttl * 1000000) }
      else b
  -- `SET NX EX` by itself: the state is not looked at
  | setProbe ttl =>
      if b.probing clock then b else { b with probeActive := some (clock + ttl * 1000000) }
  | recordSuccess =>
      -- the script looks neither at the state nor at who holds the probe
      { state := some .closed, failureCount := some 0, lastFailureAt := none, probeActive := none }
  | recordFailure threshold now =>
      let count := b.failureCount.getD 0 + 1
      -- the probe has failed: the count starts again, and its key is deleted
      if b.state = some .halfOpen then
        { state := some .open, failureCount := some 1, lastFailureAt := some now,
          probeActive := none }
      -- here the probe key stays
      else if threshold ≤ count then
        { b with state := some .open, failureCount := some count, lastFailureAt := some now }
      else
        { b with failureCount := some count, lastFailureAt := some now }

end BreakerCommand

end MiniWallet

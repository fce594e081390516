import MiniWallet.Process.Prog
import MiniWallet.Schema.Database
import MiniWallet.Schema.Responses
import MiniWallet.Server.Breaker

/-!
# Operations

Everything that a coroutine of the wallet awaits, or reads from outside: statements to Postgres,
commands to Redis, calls of the bank rail, the clock and the source of fresh identifiers. `Op.Out`
is the type of the value that an operation returns; any of them may end with an exception `Exc`
instead.
-/

namespace MiniWallet

open Numeric Process

/-- The exceptions that the services raise, catch or let through. -/
inductive Exc
  | accountNotFound
  | accountAlreadyExists
  | idempotencyConflict
  | idempotencyKeyConsumed
  | insufficientBalance
  | transferNotFound
  | depositNotFound
  | withdrawalNotFound
  /-- A statement violates a constraint. -/
  | integrityError (c : Constraint)
  /-- A value does not fit its column. -/
  | dataError
  /-- An `UPDATE` matches no row. -/
  | staleData
  /-- `scalar_one` or `refresh` on no row. -/
  | noResultFound
  /-- The connection to Postgres is lost, or Postgres ends the transaction. -/
  | operationalError
  /-- A command to Redis fails. -/
  | redisError
  /-- The bank rail rejects the call or times out. -/
  | railError (code : String)
  /-- The call of the bank rail fails in any other way. -/
  | connectionError
  /-- A call is attempted while the circuit is open. -/
  | circuitOpen
  /-- A document does not have the fields of the model it is read as. -/
  | validationError
deriving DecidableEq, Repr

/-- The failures of the database server and of Redis, which can end any operation on them. -/
def Exc.Infrastructure (e : Exc) : Prop := e = .operationalError ∨ e = .redisError

/-- Whether an exception is a failure of the servers is decidable. -/
instance (e : Exc) : Decidable e.Infrastructure := inferInstanceAs (Decidable (_ ∨ _))

/-- The plain `SELECT`s of the services. -/
inductive Query
  | accountById (id : UUID)
  | balance (account : UUID)
  | transferByKey (key : String)
  | withdrawalByKey (key : String)
  | depositByReference (ref : String)
  | ledgerEntryByKey (key : String)
  | transferById (id : UUID)
  | withdrawalById (id : UUID)
  | depositById (id : UUID)

namespace Query

/-- The type of a query's result. -/
def Result : Query → Type
  | accountById _ => Option Account
  | balance _ => Ticks
  | transferByKey _ => Option (Transfer Ticks)
  | withdrawalByKey _ => Option (Withdrawal Ticks)
  | depositByReference _ => Option (Deposit Ticks)
  | ledgerEntryByKey _ => Option (LedgerEntry Ticks)
  | transferById _ => Option (Transfer Ticks)
  | withdrawalById _ => Option (Withdrawal Ticks)
  | depositById _ => Option (Deposit Ticks)

/-- The result of a query on given tables. -/
def eval (db : Database) : (q : Query) → q.Result
  | accountById id => db.accountById id
  | balance account => db.getBalance account
  | transferByKey key => db.transferByKey key
  | withdrawalByKey key => db.withdrawalByKey key
  | depositByReference ref => db.depositByReference ref
  | ledgerEntryByKey key => db.ledgerEntryByKey key
  | transferById id => db.transferById id
  | withdrawalById id => db.withdrawalById id
  | depositById id => db.depositById id

end Query

/-- The answer of the bank rail to a status query. -/
structure RailStatus where
  state : String
  reason : Option String := none
deriving DecidableEq, Repr

/-- The operations. -/
inductive Op
  /-- `datetime.now(timezone.utc)`. -/
  | now
  /-- `uuid.uuid4()`. -/
  | uuid4
  /-- `redis.get` of an idempotency key. -/
  | cacheGet (key : String)
  /-- `redis.set` of an idempotency key. -/
  | cacheSet (key : String) (entry : CacheEntry)
  /-- A command of the circuit breaker. -/
  | breaker (command : BreakerCommand)
  /-- A plain `SELECT`. -/
  | select (q : Query)
  /-- `SELECT … FROM accounts WHERE id = … FOR UPDATE`. -/
  | lockAccount (id : UUID)
  /-- `SELECT … FROM withdrawals WHERE id = … FOR UPDATE`. -/
  | lockWithdrawal (id : UUID)
  /-- `SELECT id FROM withdrawals … FOR UPDATE SKIP LOCKED LIMIT …` over the unfinished withdrawals
  that were last updated before `cutoff`. -/
  | claimStuck (cutoff : Time) (limit : ℕ)
  /-- An `INSERT` or `UPDATE`. -/
  | write (w : Write)
  | commit
  | rollback
  /-- `rail.send_withdrawal`. -/
  | sendWithdrawal (withdrawalId : UUID) (amount : Decimal) (destination : Json)
  /-- `rail.query_status`. -/
  | queryStatus (externalReference : String)

namespace Op

/-- The type of the value that an operation returns. -/
def Out : Op → Type
  | now => Time
  | uuid4 => UUID
  | cacheGet _ => Option CacheEntry
  | cacheSet _ _ => Unit
  | breaker c => c.Reply
  | select q => q.Result
  | lockAccount _ => Option Account
  | lockWithdrawal _ => Option (Withdrawal Ticks)
  | claimStuck _ _ => List UUID
  | write _ => Unit
  | commit => Unit
  | rollback => Unit
  | sendWithdrawal _ _ _ => String
  | queryStatus _ => RailStatus

end Op

/-- A coroutine of the wallet. -/
abbrev Program (α : Type) : Type := Prog Op Op.Out Exc α

/-! ## Awaiting an operation -/

namespace Program

/-- Await an operation. -/
abbrev perform (o : Op) : Program o.Out := Prog.perform o

/-- The current time. -/
def now : Program Time := perform .now

/-- A fresh identifier. -/
def uuid4 : Program UUID := perform .uuid4

/-- Look up an idempotency key in Redis. -/
def cacheGet (key : String) : Program (Option CacheEntry) := perform (.cacheGet key)

/-- Store the answer to a request in Redis. -/
def cacheSet (key : String) (entry : CacheEntry) : Program Unit :=
  perform (.cacheSet key entry)

/-- The stored state of the circuit. -/
def getState : Program (Option CircuitState) := perform (.breaker .getState)

/-- The stored instant of the last failure. -/
def getLastFailureAt : Program (Option Time) := perform (.breaker .getLastFailureAt)

/-- Whether a probe is in flight. -/
def probeExists : Program Bool := perform (.breaker .probeExists)

/-- Run the script that claims the probe slot. -/
def claimProbe (ttl : ℤ) : Program Bool := perform (.breaker (.claimProbe ttl))

/-- Claim the probe slot with `SET NX`. -/
def setProbe (ttl : ℤ) : Program Bool := perform (.breaker (.setProbe ttl))

/-- Run the script that records a success. -/
def recordSuccess : Program Unit := perform (.breaker .recordSuccess)

/-- Run the script that records a failure. -/
def recordFailure (threshold : ℤ) (now : Time) : Program CircuitState :=
  perform (.breaker (.recordFailure threshold now))

/-- Load an account. -/
def getAccountById (id : UUID) : Program (Option Account) :=
  perform (.select (.accountById id))

/-- Derive a balance from the ledger. -/
def getBalance (account : UUID) : Program Ticks := perform (.select (.balance account))

/-- Load the transfer with an idempotency key. -/
def transferByKey (key : String) : Program (Option (Transfer Ticks)) :=
  perform (.select (.transferByKey key))

/-- Load the withdrawal with an idempotency key. -/
def withdrawalByKey (key : String) : Program (Option (Withdrawal Ticks)) :=
  perform (.select (.withdrawalByKey key))

/-- Load the deposit with a reference of the rail. -/
def depositByReference (ref : String) : Program (Option (Deposit Ticks)) :=
  perform (.select (.depositByReference ref))

/-- Load the ledger leg with an idempotency key. -/
def ledgerEntryByKey (key : String) : Program (Option (LedgerEntry Ticks)) :=
  perform (.select (.ledgerEntryByKey key))

/-- Load a transfer. -/
def transferById (id : UUID) : Program (Option (Transfer Ticks)) :=
  perform (.select (.transferById id))

/-- Load a withdrawal. -/
def withdrawalById (id : UUID) : Program (Option (Withdrawal Ticks)) :=
  perform (.select (.withdrawalById id))

/-- Load a deposit. -/
def depositById (id : UUID) : Program (Option (Deposit Ticks)) :=
  perform (.select (.depositById id))

/-- Load an account and lock its row. -/
def lockAccount (id : UUID) : Program (Option Account) := perform (.lockAccount id)

/-- Load a withdrawal and lock its row. -/
def lockWithdrawal (id : UUID) : Program (Option (Withdrawal Ticks)) :=
  perform (.lockWithdrawal id)

/-- Find unfinished withdrawals and lock their rows. -/
def claimStuck (cutoff : Time) (limit : ℕ) : Program (List UUID) :=
  perform (.claimStuck cutoff limit)

/-- Send one statement that changes a table. -/
def write (w : Write) : Program Unit := perform (.write w)

/-- Send the pending changes of the session, in order. -/
def flush : List Write → Program Unit
  | [] => pure ()
  | w :: ws => do
      write w
      flush ws

/-- Commit the open transaction. -/
def commit : Program Unit := perform .commit

/-- Roll the open transaction back. -/
def rollback : Program Unit := perform .rollback

/-- Submit a withdrawal to the bank rail; the rail answers with its reference. -/
def sendWithdrawal (withdrawalId : UUID) (amount : Decimal) (destination : Json) :
    Program String :=
  perform (.sendWithdrawal withdrawalId amount destination)

/-- Ask the bank rail about a submitted withdrawal. -/
def queryStatus (externalReference : String) : Program RailStatus :=
  perform (.queryStatus externalReference)

/-- `async with db.begin()`: commit after the body, roll back if it raises. -/
def begin {α : Type} (body : Program α) : Program α :=
  try
    let a ← body
    commit
    pure a
  catch e =>
    rollback
    throw e

end Program

end MiniWallet

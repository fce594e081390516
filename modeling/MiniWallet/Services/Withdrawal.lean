import MiniWallet.Events.Publisher
import MiniWallet.Services.CircuitBreaker

/-!
# Withdrawal service

The saga of a withdrawal, in the process that handles the request: reserve the funds, cache the
answer, mark the withdrawal as submitted, call the rail, and then complete or compensate. Each of
the three changes is a transaction of its own. The object in memory keeps the amount as it was
requested, and an update addresses its row by primary key only.
-/

namespace MiniWallet

open Numeric Program

/-- The parameters of `create_withdrawal`. -/
structure WithdrawalRequest where
  accountId : UUID
  amount : Decimal
  currency : String
  destinationType : String
  destinationDetails : Json
  idempotencyKey : String
  actorUserId : Option UUID
  circuitBreaker : Option CircuitBreaker

/-- The Redis key of a withdrawal's idempotency key. -/
def withdrawalCacheKey (idempotencyKey : String) : String :=
  "idempotency:withdrawal:" ++ idempotencyKey

/-- The fields that identify a withdrawal request, as they are hashed. -/
def withdrawalFingerprint (accountId : UUID) (amount : Decimal) (currency destinationType : String)
    (destinationDetails : Json) : String :=
  accountId.str ++ ":" ++ amount.str ++ ":" ++ currency ++ ":" ++ destinationType ++ ":" ++
    destinationDetails.dumps

/-- The response of a cache entry that is read as the answer to a withdrawal. -/
def CacheEntry.withdrawalResponse (entry : CacheEntry) : Program WithdrawalResponse :=
  match entry.response with
  | .withdrawal response => pure response
  | .transfer _ => throw .validationError

/-- The idempotency key of the reversal of a withdrawal. -/
def reversalKey (withdrawalId : UUID) : String := "reversal:" ++ withdrawalId.str

/-- The code of the exceptions that the saga compensates for: `RailError` and `CircuitOpenError`. -/
def Exc.railCode? : Exc → Option String
  | .railError code => some code
  | .circuitOpen => some "CIRCUIT_OPEN"
  | _ => none

/-- TX 3a: the rail accepted the withdrawal. -/
def completeWithdrawal (withdrawal : Withdrawal Decimal) (externalReference : String)
    (actorUserId : Option UUID) : Program (Withdrawal Decimal) :=
  begin do
    let completedAt ← now
    let event ← publishEvent "withdrawal.events" "withdrawal.completed"
      (.withdrawalCompleted
        { withdrawalId := withdrawal.id.str
          accountId := withdrawal.accountId.str
          amount := money withdrawal.amount
          currency := withdrawal.currency
          externalReference := externalReference
          entryType := "withdrawal" })
      actorUserId
    -- the `before_flush` listener refreshes `updated_at`
    let updatedAt ← now
    let set : WithdrawalSet :=
      { status := .completed
        externalReference := some externalReference
        completedAt := some completedAt
        updatedAt := updatedAt }
    flush [.insert (.outbox event), .setWithdrawal withdrawal.id set]
    pure (set.apply withdrawal)

/-- TX 3b: the rail rejected the withdrawal. The reversal is two new legs. -/
def compensateWithdrawal (withdrawal : Withdrawal Decimal) (failureCode : String)
    (actorUserId : Option UUID) : Program (Withdrawal Decimal) := do
  let at_ ← now
  -- a session of its own, which commits at the end
  begin do
    let txnId ← uuid4
    let debitId ← uuid4
    let reversalDebit : LedgerEntry Decimal :=
      { id := debitId
        transactionId := txnId
        accountId := systemAccountId
        direction := .debit
        amount := withdrawal.amount
        currency := withdrawal.currency
        entryType := .withdrawalReversal
        referenceId := some withdrawal.id
        createdAt := at_ }
    let creditId ← uuid4
    -- the key of the credit keeps a withdrawal from being refunded twice
    let reversalCredit : LedgerEntry Decimal :=
      { id := creditId
        transactionId := txnId
        accountId := withdrawal.accountId
        direction := .credit
        amount := withdrawal.amount
        currency := withdrawal.currency
        entryType := .withdrawalReversal
        referenceId := some withdrawal.id
        idempotencyKey := some (reversalKey withdrawal.id)
        createdAt := at_ }
    let event ← publishEvent "withdrawal.events" "withdrawal.failed"
      (.withdrawalFailed
        { withdrawalId := withdrawal.id.str
          accountId := withdrawal.accountId.str
          amount := money withdrawal.amount
          currency := withdrawal.currency
          failureCode := failureCode
          entryType := "withdrawal_reversal" })
      actorUserId
    -- the listener sets `updated_at` when the update is flushed
    let updatedAt ← now
    let set : WithdrawalSet :=
      { status := .failed
        failureCode := some failureCode
        completedAt := some at_
        updatedAt := updatedAt }
    flush [.insert (.ledger reversalDebit), .insert (.ledger reversalCredit),
      .insert (.outbox event), .setWithdrawal withdrawal.id set]
    pure (set.apply withdrawal)

/-- Insert the pending withdrawal. On any integrity error, the withdrawal with the same key is
returned instead. -/
def insertWithdrawal (q : WithdrawalRequest) (withdrawal : Withdrawal Decimal) :
    Program (Option (Withdrawal Ticks)) :=
  try
    write (.insert (.withdrawal withdrawal))
    pure none
  catch
    -- any integrity error is taken for a duplicate key, and the requests are not compared
    | .integrityError _ => do
        rollback
        match ← withdrawalByKey q.idempotencyKey with
        | some existing => pure (some existing)
        | none => throw .noResultFound
    | e => throw e

/-- The rest of TX 1, after the withdrawal has been inserted: the two legs and the event. -/
def reserveFunds (q : WithdrawalRequest) (withdrawal : Withdrawal Decimal) (at_ : Time) :
    Program Unit := do
  let txnId ← uuid4
  let debitId ← uuid4
  let debitLeg : LedgerEntry Decimal :=
    { id := debitId
      transactionId := txnId
      accountId := q.accountId
      direction := .debit
      amount := q.amount
      currency := q.currency
      entryType := .withdrawal
      referenceId := some withdrawal.id
      createdAt := at_ }
  let creditId ← uuid4
  let creditLeg : LedgerEntry Decimal :=
    { id := creditId
      transactionId := txnId
      accountId := systemAccountId
      direction := .credit
      amount := q.amount
      currency := q.currency
      entryType := .withdrawal
      referenceId := some withdrawal.id
      createdAt := at_ }
  let event ← publishEvent "withdrawal.events" "withdrawal.initiated"
    (.withdrawalInitiated
      { withdrawalId := withdrawal.id.str
        accountId := q.accountId.str
        amount := money q.amount
        currency := q.currency
        destinationType := q.destinationType
        entryType := "withdrawal" })
    q.actorUserId
  flush [.insert (.ledger creditLeg), .insert (.ledger debitLeg), .insert (.outbox event)]
  commit

/-- Step 2 of the saga: mark the withdrawal as submitted. -/
def submitWithdrawal (withdrawal : Withdrawal Decimal) : Program (Withdrawal Decimal) :=
  begin do
    let submittedAt ← now
    let updatedAt ← now
    let set : WithdrawalSet :=
      { status := .submitted, submittedAt := some submittedAt, updatedAt := updatedAt }
    flush [.setWithdrawal withdrawal.id set]
    pure (set.apply withdrawal)

/-- The call of the rail, through the circuit breaker if there is one. -/
def callRail (circuitBreaker : Option CircuitBreaker) (withdrawal : Withdrawal Decimal) :
    Program String :=
  let send := sendWithdrawal withdrawal.id withdrawal.amount withdrawal.destinationDetails
  match circuitBreaker with
  | some cb => cb.call send
  | none => send

/-- The outcome of the call of the rail: its reference, or the code to compensate with. Any other
exception ends the saga. -/
def callRailOutcome (circuitBreaker : Option CircuitBreaker) (withdrawal : Withdrawal Decimal) :
    Program (Except String String) :=
  try
    let reference ← callRail circuitBreaker withdrawal
    pure (.ok reference)
  catch e =>
    match e.railCode? with
    | some code => pure (.error code)
    | none => throw e

/-- Load a withdrawal. One that does not exist and one of another account are not told apart. -/
def getWithdrawal (withdrawalId requestingAccountId : UUID) : Program WithdrawalResponse := do
  match ← withdrawalById withdrawalId with
  | none => throw .withdrawalNotFound
  | some withdrawal =>
      if withdrawal.accountId ≠ requestingAccountId then throw .withdrawalNotFound
      else pure (withdrawalToResponse withdrawal.loaded)

section Hash

variable (sha256 : String → String)

/-- `_hash_request` of a withdrawal. -/
def hashWithdrawal (accountId : UUID) (amount : Decimal) (currency destinationType : String)
    (destinationDetails : Json) : String :=
  sha256 (withdrawalFingerprint accountId amount currency destinationType destinationDetails)

/-- The hash of a withdrawal request. -/
def WithdrawalRequest.hash (q : WithdrawalRequest) : String :=
  hashWithdrawal sha256 q.accountId q.amount q.currency q.destinationType q.destinationDetails

/-- The saga from the committed reservation on. -/
def runSaga (q : WithdrawalRequest) (withdrawal : Withdrawal Decimal) :
    Program WithdrawalResponse := do
  let response := withdrawalToResponse withdrawal
  -- cached as pending, before the rail is called
  cacheSet (withdrawalCacheKey q.idempotencyKey)
    { requestHash := q.hash sha256, response := .withdrawal response }
  -- committed before the call, so that no lock is held during it
  let submitted ← submitWithdrawal withdrawal
  match ← callRailOutcome q.circuitBreaker submitted with
  | .error code =>
      let failed ← compensateWithdrawal submitted code q.actorUserId
      pure (withdrawalToResponse failed)
  | .ok reference =>
      let completed ← completeWithdrawal submitted reference q.actorUserId
      pure (withdrawalToResponse completed)

/-- TX 1 and what follows it, once Redis has no answer. -/
def startWithdrawal (q : WithdrawalRequest) : Program WithdrawalResponse := do
  -- the system account does not withdraw
  if q.accountId = systemAccountId then throw .accountNotFound
  else
    match ← lockAccount q.accountId with
    | none => throw .accountNotFound
    | some _ =>
        -- the balance is read under the lock of the account
        let balance ← getBalance q.accountId
        if q.amount.Exceeds moneyPlaces balance then throw .insufficientBalance
        else
          -- the row is flushed first, so that a duplicate of the key shows before the legs
          let at_ ← now
          let id ← uuid4
          let withdrawal : Withdrawal Decimal :=
            { id := id
              accountId := q.accountId
              amount := q.amount
              currency := q.currency
              status := .pending
              destinationType := q.destinationType
              destinationDetails := q.destinationDetails
              idempotencyKey := q.idempotencyKey
              createdAt := at_
              updatedAt := at_ }
          match ← insertWithdrawal q withdrawal with
          | some existing => pure (withdrawalToResponse existing.loaded)
          | none =>
              reserveFunds q withdrawal at_
              runSaga sha256 q withdrawal

/-- Run the withdrawal saga end to end. -/
def createWithdrawal (q : WithdrawalRequest) : Program WithdrawalResponse := do
  match ← cacheGet (withdrawalCacheKey q.idempotencyKey) with
  | some cached =>
      if cached.requestHash ≠ q.hash sha256 then throw .idempotencyConflict
      else cached.withdrawalResponse
  | none => startWithdrawal sha256 q

end Hash

end MiniWallet

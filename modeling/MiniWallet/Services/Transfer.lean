import MiniWallet.Events.Publisher

/-!
# Transfer service

A transfer locks both accounts in the order of their identifiers, derives the sender's balance from
the ledger, and commits one transaction: either the transfer with its two legs, or the record of a
transfer that failed for lack of balance. A duplicate idempotency key is found in Redis, or else by
the unique constraint of the table.
-/

namespace MiniWallet

open Numeric Program

/-- The parameters of `transfer`. -/
structure TransferRequest where
  fromAccountId : UUID
  toAccountId : UUID
  amount : Decimal
  idempotencyKey : String
  actorUserId : Option UUID

/-- The Redis key of a transfer's idempotency key. -/
def transferCacheKey (idempotencyKey : String) : String := "idempotency:" ++ idempotencyKey

/-- The fields that identify a transfer request, as they are hashed. -/
def transferFingerprint (fromAccountId toAccountId : UUID) (amount : Decimal) : String :=
  fromAccountId.str ++ ":" ++ toAccountId.str ++ ":" ++ money amount

/-- The response of a cache entry that is read as the answer to a transfer. -/
def CacheEntry.transferResponse (entry : CacheEntry) : Program TransferResponse :=
  match entry.response with
  | .transfer response => pure response
  | .withdrawal _ => throw .validationError

/-- Both accounts, in the order in which they are locked. -/
def lockOrder (a b : UUID) : List UUID := if b.str < a.str then [b, a] else [a, b]

/-- Lock the accounts in turn. -/
def lockAccounts : List UUID → Program Unit
  | [] => pure ()
  | id :: ids => do
      match ← lockAccount id with
      | none => throw .accountNotFound
      | some _ => lockAccounts ids

/-- Record a transfer that the sender's balance does not cover. -/
def recordInsufficientBalance (q : TransferRequest) : Program (Transfer Decimal) := do
  let at_ ← now
  let id ← uuid4
  let failedRecord : Transfer Decimal :=
    { id := id
      fromAccountId := q.fromAccountId
      toAccountId := q.toAccountId
      amount := q.amount
      currency := "USD"
      status := .failed
      failureCode := some "INSUFFICIENT_BALANCE"
      idempotencyKey := q.idempotencyKey
      createdAt := at_
      updatedAt := at_ }
  let event ← publishEvent "transfer.events" "transfer.failed"
    (.transferFailed
      { transferId := failedRecord.id.str
        fromAccountId := q.fromAccountId.str
        toAccountId := q.toAccountId.str
        amount := money q.amount
        currency := "USD"
        failureCode := "INSUFFICIENT_BALANCE"
        entryType := "transfer"
        idempotencyKey := q.idempotencyKey })
    q.actorUserId
  -- a flush goes through the tables by the names of the classes
  flush [.insert (.outbox event), .insert (.transfer failedRecord)]
  commit
  throw .insufficientBalance

/-- Move the money: the transfer and its two legs, in one transaction. -/
def recordTransfer (q : TransferRequest) : Program (Transfer Decimal) := do
  let at_ ← now
  let txnId ← uuid4
  let id ← uuid4
  let transferRecord : Transfer Decimal :=
    { id := id
      fromAccountId := q.fromAccountId
      toAccountId := q.toAccountId
      amount := q.amount
      currency := "USD"
      status := .completed
      idempotencyKey := q.idempotencyKey
      createdAt := at_
      updatedAt := at_ }
  -- the legs refer to the transfer
  let debitId ← uuid4
  let debitLeg : LedgerEntry Decimal :=
    { id := debitId
      transactionId := txnId
      accountId := q.fromAccountId
      direction := .debit
      amount := q.amount
      currency := "USD"
      entryType := .transfer
      referenceId := some transferRecord.id
      createdAt := at_ }
  let creditId ← uuid4
  let creditLeg : LedgerEntry Decimal :=
    { id := creditId
      transactionId := txnId
      accountId := q.toAccountId
      direction := .credit
      amount := q.amount
      currency := "USD"
      entryType := .transfer
      referenceId := some transferRecord.id
      createdAt := at_ }
  let event ← publishEvent "transfer.events" "transfer.completed"
    (.transferCompleted
      { transferId := transferRecord.id.str
        fromAccountId := q.fromAccountId.str
        toAccountId := q.toAccountId.str
        amount := money q.amount
        currency := "USD"
        entryType := "transfer"
        idempotencyKey := q.idempotencyKey })
    q.actorUserId
  -- the unit of work writes the row of the transfer last
  flush [.insert (.ledger debitLeg), .insert (.ledger creditLeg), .insert (.outbox event),
    .insert (.transfer transferRecord)]
  commit
  pure transferRecord

/-- The transaction of a transfer. The balance is compared with the amount as it was requested. -/
def attemptTransfer (q : TransferRequest) : Program (Transfer Decimal) := do
  lockAccounts (lockOrder q.fromAccountId q.toAccountId)
  let balance ← getBalance q.fromAccountId
  if q.amount.Exceeds moneyPlaces balance then
    recordInsufficientBalance q
  else
    recordTransfer q

/-- Load a transfer. One that does not exist and one of other accounts are not told apart. -/
def getTransfer (transferId requestingAccountId : UUID) : Program TransferResponse := do
  match ← transferById transferId with
  | none => throw .transferNotFound
  | some record =>
      if record.fromAccountId ≠ requestingAccountId ∧ record.toAccountId ≠ requestingAccountId then
        throw .transferNotFound
      else pure (transferToResponse record.loaded)

section Hash

variable (sha256 : String → String)

/-- `_hash_request` of a transfer. -/
def hashTransfer (fromAccountId toAccountId : UUID) (amount : Decimal) : String :=
  sha256 (transferFingerprint fromAccountId toAccountId amount)

/-- The hash of a transfer request. -/
def TransferRequest.hash (q : TransferRequest) : String :=
  hashTransfer sha256 q.fromAccountId q.toAccountId q.amount

/-- The hash of the request that a transfer answers. -/
def Transfer.hash (t : Transfer Decimal) : String :=
  hashTransfer sha256 t.fromAccountId t.toAccountId t.amount

/-- The handler of `IntegrityError`: after a duplicate key, load the transfer that has it. -/
def resolveTransfer (q : TransferRequest) (e : Exc) : Program (Transfer Decimal) :=
  match e with
  | .integrityError c => do
      rollback
      if c.mentions "idempotency_key" then
        match ← transferByKey q.idempotencyKey with
        | none => throw (.integrityError c)
        | some existing =>
            -- the stored amount was rounded by its column, and the hash renders both with four
            -- places
            if existing.loaded.hash sha256 ≠ q.hash sha256 then throw .idempotencyConflict
            else if existing.status = .failed then throw .idempotencyKeyConsumed
            else pure existing.loaded
      else throw (.integrityError c)
  | e => throw e

/-- Transfer money from one account to another. -/
def transfer (q : TransferRequest) : Program TransferResponse := do
  -- a hit takes no lock and touches no table
  match ← cacheGet (transferCacheKey q.idempotencyKey) with
  | some cached =>
      if cached.requestHash ≠ q.hash sha256 then throw .idempotencyConflict
      else cached.transferResponse
  | none =>
      let transferRecord ←
        try attemptTransfer q
        catch e => resolveTransfer sha256 q e
      let response := transferToResponse transferRecord
      -- only a committed transfer is cached
      cacheSet (transferCacheKey q.idempotencyKey)
        { requestHash := q.hash sha256, response := .transfer response }
      pure response

end Hash

end MiniWallet

import MiniWallet.Events.Publisher

/-!
# Account service

Opening an account, and seeding it with money from the system account.
-/

namespace MiniWallet

open Numeric Program

/-- Open the account of a user. -/
def openAccount (userId : UUID) : Program Account := do
  let at_ ← now
  let id ← uuid4
  let account : Account :=
    { id := id, userId := some userId, status := "active", createdAt := at_, updatedAt := at_ }
  let event ← publishEvent "account.events" "account.opened"
    (.accountOpened
      { accountId := account.id.str, userId := userId.str, status := account.status })
    (some userId)
  try
    flush [.insert (.account account), .insert (.outbox event)]
    commit
  catch
    | .integrityError _ =>
        rollback
        throw .accountAlreadyExists
    | e => throw e
  -- `db.refresh`
  match ← getAccountById account.id with
  | some account => pure account
  | none => throw .noResultFound

/-- The parameters of `seed`. -/
structure SeedRequest where
  accountId : UUID
  amount : Decimal
  idempotencyKey : String
  actorUserId : UUID

/-- A duplicate seed: the leg with the key has to be a seed of the same amount to the same
account. -/
def resolveSeed (q : SeedRequest) (e : Exc) : Program UUID :=
  match e with
  | .integrityError c => do
      rollback
      match ← ledgerEntryByKey q.idempotencyKey with
      -- it was another constraint that was violated
      | none => throw (.integrityError c)
      | some existing =>
          -- the stored amount has been rounded by its column, and the requested one is compared as
          -- it is
          if existing.accountId ≠ q.accountId ∨
              (Ticks.toDecimal existing.amount).value ≠ q.amount.value then
            throw .idempotencyConflict
          else
            pure existing.id
  | e => throw e

/-- Credit an account with money from the system account. -/
def seed (q : SeedRequest) : Program SeedResponse := do
  match ← getAccountById q.accountId with
  | none => throw .accountNotFound
  | some _ =>
      -- `datetime.now` and the identifiers are drawn before anything is written
      let at_ ← now
      let txnId ← uuid4
      let debitId ← uuid4
      let creditId ← uuid4
      let debitLeg : LedgerEntry Decimal :=
        { id := debitId
          transactionId := txnId
          accountId := systemAccountId
          direction := .debit
          amount := q.amount
          currency := "USD"
          entryType := .seed
          createdAt := at_ }
      let creditLeg : LedgerEntry Decimal :=
        { id := creditId
          transactionId := txnId
          accountId := q.accountId
          direction := .credit
          amount := q.amount
          currency := "USD"
          entryType := .seed
          idempotencyKey := some q.idempotencyKey
          createdAt := at_ }
      let event ← publishEvent "account.events" "seed.completed"
        (.seedCompleted
          { accountId := q.accountId.str
            userId := q.actorUserId.str
            amount := money q.amount
            currency := "USD"
            entryType := "seed" })
        (some q.actorUserId)
      -- a duplicate of the key shows at the flush or at the commit
      let entryId ←
        try
          flush [.insert (.ledger debitLeg), .insert (.ledger creditLeg), .insert (.outbox event)]
          commit
          pure creditLeg.id
        catch e => resolveSeed q e
      -- the balance is read in a new transaction
      let newBalance ← getBalance q.accountId
      pure
        { entryId := entryId.str
          accountId := q.accountId.str
          amount := money q.amount
          newBalance := money (Ticks.toDecimal newBalance) }

end MiniWallet

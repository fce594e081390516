import MiniWallet.Events.Publisher

/-!
# Deposit service

A deposit is one transaction: the record is inserted as pending, validated, and then either rejected
or completed with the two legs that credit the account. The reference of the rail is unique, so a
duplicate finds the existing record.
-/

namespace MiniWallet

open Numeric Program

/-- The parameters of `simulate_deposit`. -/
structure DepositRequest where
  accountId : UUID
  amount : Decimal
  currency : String
  sourceType : String
  externalReference : String

/-- `SUPPORTED_CURRENCIES`. -/
def supportedCurrencies : List String := ["USD"]

/-- `_ALLOWED_SOURCE_TYPES`, which the validators of the webhook admit. -/
def allowedSourceTypes : List String := ["bank_transfer", "card_topup", "direct_debit"]

/-- The reasons for which a deposit is rejected before its account is loaded. -/
def rejectionReason (q : DepositRequest) : Option String :=
  if q.accountId = systemAccountId then some "ACCOUNT_NOT_FOUND"
  else if q.amount.Nonpositive then some "INVALID_AMOUNT"
  else if q.currency ∉ supportedCurrencies then some "UNSUPPORTED_CURRENCY"
  else none

/-- All reasons for which a deposit is rejected. The account is locked if it gets that far. -/
def validateDeposit (q : DepositRequest) : Program (Option String) := do
  match rejectionReason q with
  | some reason => pure (some reason)
  | none =>
      match ← lockAccount q.accountId with
      | none => pure (some "ACCOUNT_NOT_FOUND")
      | some account =>
          if account.status ≠ "active" then pure (some "ACCOUNT_NOT_ACTIVE") else pure none

/-- Insert the pending record. On a duplicate reference, the existing record is returned. -/
def insertDeposit (q : DepositRequest) (deposit : Deposit Decimal) :
    Program (Option (Deposit Ticks)) :=
  try
    write (.insert (.deposit deposit))
    pure none
  catch
    | .integrityError c => do
        rollback
        if c.mentions "external_reference" then
          match ← depositByReference q.externalReference with
          | some existing => pure (some existing)
          | none => throw .noResultFound
        -- a foreign key or a `CHECK` constraint: nothing is recorded
        else throw (.integrityError c)
    | e => throw e

/-- Mark the deposit as rejected. -/
def rejectDeposit (deposit : Deposit Decimal) (reason : String) (at_ : Time) :
    Program DepositResponse := do
  let set : DepositSet := { status := .rejected, rejectionReason := some reason, updatedAt := at_ }
  let event ← publishEvent "deposit.events" "deposit.rejected"
    (.depositRejected
      { depositId := deposit.id.str
        accountId := deposit.accountId.str
        -- `str(amount)`, with the digits of the request
        amount := deposit.amount.str
        currency := deposit.currency
        entryType := "deposit"
        rejectionReason := reason })
    none
  -- a rejected deposit never has a leg
  flush [.setDeposit deposit.id set, .insert (.outbox event)]
  commit
  pure (depositToResponse (set.apply deposit))

/-- Write the two legs and mark the deposit as completed. -/
def completeDeposit (deposit : Deposit Decimal) (at_ : Time) : Program DepositResponse := do
  let transactionId ← uuid4
  let creditId ← uuid4
  let creditLeg : LedgerEntry Decimal :=
    { id := creditId
      transactionId := transactionId
      accountId := deposit.accountId
      direction := .credit
      amount := deposit.amount
      currency := deposit.currency
      entryType := .deposit
      referenceId := some deposit.id
      createdAt := at_ }
  let debitId ← uuid4
  let debitLeg : LedgerEntry Decimal :=
    { id := debitId
      transactionId := transactionId
      accountId := systemAccountId
      direction := .debit
      amount := deposit.amount
      currency := deposit.currency
      entryType := .deposit
      referenceId := some deposit.id
      createdAt := at_ }
  -- the update of the deposit goes with both legs and the event
  let set : DepositSet := { status := .completed, completedAt := some at_, updatedAt := at_ }
  let event ← publishEvent "deposit.events" "deposit.completed"
    (.depositCompleted
      { depositId := deposit.id.str
        accountId := deposit.accountId.str
        amount := deposit.amount.str
        currency := deposit.currency
        sourceType := deposit.sourceType
        entryType := "deposit"
        externalReference := deposit.externalReference })
    none
  flush [.setDeposit deposit.id set, .insert (.ledger creditLeg), .insert (.ledger debitLeg),
    .insert (.outbox event)]
  commit
  pure (depositToResponse (set.apply deposit))

/-- Process the webhook of an inbound payment. -/
def simulateDeposit (q : DepositRequest) : Program DepositResponse := do
  let at_ ← now
  let id ← uuid4
  let deposit : Deposit Decimal :=
    { id := id
      accountId := q.accountId
      amount := q.amount
      currency := q.currency
      status := .pending
      sourceType := q.sourceType
      externalReference := q.externalReference
      createdAt := at_
      updatedAt := at_ }
  -- flushed, not committed: only this transaction sees the pending row
  match ← insertDeposit q deposit with
  | some existing => pure (depositToResponse existing.loaded)
  | none =>
      match ← validateDeposit q with
      | some reason => rejectDeposit deposit reason at_
      | none => completeDeposit deposit at_

/-- Load a deposit. One that does not exist and one of another account are not told apart. -/
def getDeposit (depositId requestingAccountId : UUID) : Program DepositResponse := do
  match ← depositById depositId with
  | none => throw .depositNotFound
  | some deposit =>
      if deposit.accountId ≠ requestingAccountId then throw .depositNotFound
      else pure (depositToResponse deposit.loaded)

end MiniWallet

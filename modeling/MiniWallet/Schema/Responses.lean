import MiniWallet.Schema.Tables

/-!
# Responses

What the services return, and the snapshot of a response that is kept in Redis under an idempotency
key. Transfers and withdrawals share that part of Redis, so a snapshot can be of either kind.
-/

namespace MiniWallet

open Numeric

/-- Response of `POST /transfers` and of `GET /transfers/{id}`. -/
structure TransferResponse where
  transferId : String
  fromAccountId : String
  toAccountId : String
  amount : String
  status : String
  failureCode : Option String
  createdAt : Time
deriving DecidableEq

/-- Response of `POST /withdrawals` and of `GET /withdrawals/{id}`. -/
structure WithdrawalResponse where
  withdrawalId : String
  accountId : String
  amount : String
  currency : String
  destinationType : String
  status : String
  createdAt : Time
  submittedAt : Option Time
  completedAt : Option Time
  failureCode : Option String
  externalReference : Option String
deriving DecidableEq

/-- Response of `POST /dev/simulate-deposit`. -/
structure DepositResponse where
  depositId : String
  accountId : String
  amount : String
  currency : String
  status : String
  sourceType : String
  externalReference : String
  rejectionReason : Option String
  createdAt : Time
  completedAt : Option Time
deriving DecidableEq

/-- Response of `POST /dev/seed`. -/
structure SeedResponse where
  entryId : String
  accountId : String
  amount : String
  newBalance : String
deriving DecidableEq

/-- Shape a transfer into its response. -/
def transferToResponse (t : Transfer Decimal) : TransferResponse where
  transferId := t.id.str
  fromAccountId := t.fromAccountId.str
  toAccountId := t.toAccountId.str
  amount := money t.amount
  status := t.status.str
  failureCode := t.failureCode
  createdAt := t.createdAt

/-- Shape a withdrawal into its response. -/
def withdrawalToResponse (w : Withdrawal Decimal) : WithdrawalResponse where
  withdrawalId := w.id.str
  accountId := w.accountId.str
  amount := money w.amount
  currency := w.currency
  destinationType := w.destinationType
  status := w.status.str
  createdAt := w.createdAt
  submittedAt := w.submittedAt
  completedAt := w.completedAt
  failureCode := w.failureCode
  externalReference := w.externalReference

/-- Shape a deposit into its response. -/
def depositToResponse (d : Deposit Decimal) : DepositResponse where
  depositId := d.id.str
  accountId := d.accountId.str
  amount := money d.amount
  currency := d.currency
  status := d.status.str
  sourceType := d.sourceType
  externalReference := d.externalReference
  rejectionReason := d.rejectionReason
  createdAt := d.createdAt
  completedAt := d.completedAt

/-- A response as Redis keeps it. -/
inductive CachedResponse
  | transfer (response : TransferResponse)
  | withdrawal (response : WithdrawalResponse)
deriving DecidableEq

/-- What Redis holds under an idempotency key. -/
structure CacheEntry where
  /-- The hash of the request that was answered. -/
  requestHash : String
  /-- The answer. -/
  response : CachedResponse
deriving DecidableEq

end MiniWallet

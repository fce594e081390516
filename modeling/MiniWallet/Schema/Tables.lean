import Mathlib.Data.List.Infix
import MiniWallet.Events.Schemas

/-!
# Tables

The rows of the tables that the money movements touch, with the constraints that the migrations put
on them. A row is polymorphic in the type of its amounts: `Row Decimal` is an object in memory, with
the amount as the request gave it, and `Row Ticks` is what the table stores. `Row.stored` is the way
from one to the other.

`Row.fits`, `Row.failedCheck?`, `Row.keys` and `Row.foreignKeys` are the column types, the `CHECK`
constraints, the unique constraints and the foreign keys of a row.
-/

namespace MiniWallet

open Numeric

/-- A row of `accounts`. -/
structure Account where
  id : UUID
  /-- The owner; the system account has none. -/
  userId : Option UUID
  status : String
  createdAt : Time
  updatedAt : Time
deriving DecidableEq, Repr

/-- A row of `ledger_entries`: one leg of a double entry. -/
structure LedgerEntry (Amount : Type) where
  id : UUID
  /-- What the two legs of one movement share. -/
  transactionId : UUID
  accountId : UUID
  direction : Direction
  amount : Amount
  currency : String
  entryType : EntryType
  referenceId : Option UUID := none
  idempotencyKey : Option String := none
  createdAt : Time
deriving DecidableEq, Repr

/-- A row of `transfers`. -/
structure Transfer (Amount : Type) where
  id : UUID
  fromAccountId : UUID
  toAccountId : UUID
  amount : Amount
  currency : String
  status : TransferStatus
  failureCode : Option String := none
  idempotencyKey : String
  createdAt : Time
  updatedAt : Time
deriving DecidableEq, Repr

/-- A row of `deposits`. -/
structure Deposit (Amount : Type) where
  id : UUID
  accountId : UUID
  amount : Amount
  currency : String
  status : DepositStatus
  sourceType : String
  externalReference : String
  rejectionReason : Option String := none
  createdAt : Time
  completedAt : Option Time := none
  updatedAt : Time
deriving DecidableEq, Repr

/-- A row of `withdrawals`. -/
structure Withdrawal (Amount : Type) where
  id : UUID
  accountId : UUID
  amount : Amount
  currency : String
  status : WithdrawalStatus
  failureCode : Option String := none
  destinationType : String
  destinationDetails : Json
  externalReference : Option String := none
  idempotencyKey : String
  createdAt : Time
  submittedAt : Option Time := none
  completedAt : Option Time := none
  updatedAt : Time

/-- A row of `outbox`, as the services insert it: pending, for the relay to pick up. -/
structure OutboxRow where
  id : UUID
  topic : String
  eventType : String
  payload : EventEnvelope
deriving DecidableEq, Repr

/-- A row of one of the tables. -/
inductive Row (Amount : Type)
  | account (a : Account)
  | ledger (e : LedgerEntry Amount)
  | transfer (t : Transfer Amount)
  | deposit (d : Deposit Amount)
  | withdrawal (w : Withdrawal Amount)
  | outbox (o : OutboxRow)

variable {α β : Type}

/-- A ledger leg with its amount converted. -/
def LedgerEntry.map (f : α → β) (e : LedgerEntry α) : LedgerEntry β :=
  { e with amount := f e.amount }

/-- A transfer with its amount converted. -/
def Transfer.map (f : α → β) (t : Transfer α) : Transfer β :=
  { t with amount := f t.amount }

/-- A deposit with its amount converted. -/
def Deposit.map (f : α → β) (d : Deposit α) : Deposit β :=
  { d with amount := f d.amount }

/-- A withdrawal with its amount converted. -/
def Withdrawal.map (f : α → β) (w : Withdrawal α) : Withdrawal β :=
  { w with amount := f w.amount }

/-- A row with its amount converted. -/
def Row.map (f : α → β) : Row α → Row β
  | account a => account a
  | ledger e => ledger (e.map f)
  | transfer t => transfer (t.map f)
  | deposit d => deposit (d.map f)
  | withdrawal w => withdrawal (w.map f)
  | outbox o => outbox o

/-- The row that the table holds after an object has been inserted. -/
def Row.stored : Row Decimal → Row Ticks := Row.map Ticks.ofDecimal

/-- The leg that the table holds after an object has been inserted. -/
abbrev LedgerEntry.stored : LedgerEntry Decimal → LedgerEntry Ticks :=
  LedgerEntry.map Ticks.ofDecimal

/-- The transfer that the table holds after an object has been inserted. -/
abbrev Transfer.stored : Transfer Decimal → Transfer Ticks := Transfer.map Ticks.ofDecimal

/-- The deposit that the table holds after an object has been inserted. -/
abbrev Deposit.stored : Deposit Decimal → Deposit Ticks := Deposit.map Ticks.ofDecimal

/-- The withdrawal that the table holds after an object has been inserted. -/
abbrev Withdrawal.stored : Withdrawal Decimal → Withdrawal Ticks :=
  Withdrawal.map Ticks.ofDecimal

/-- The object that a query loads from a row of `transfers`. -/
abbrev Transfer.loaded : Transfer Ticks → Transfer Decimal := Transfer.map Ticks.toDecimal

/-- The object that a query loads from a row of `deposits`. -/
abbrev Deposit.loaded : Deposit Ticks → Deposit Decimal := Deposit.map Ticks.toDecimal

/-- The object that a query loads from a row of `withdrawals`. -/
abbrev Withdrawal.loaded : Withdrawal Ticks → Withdrawal Decimal :=
  Withdrawal.map Ticks.toDecimal

/-! ## Constraints -/

/-- The tables, for the names of their constraints. -/
inductive Table
  | accounts
  | ledgerEntries
  | transfers
  | deposits
  | withdrawals
  | outbox
deriving DecidableEq, Repr

/-- The constraints that an inserted row can violate. -/
inductive Constraint
  | pkey (t : Table)
  | oneAccountPerUser
  | oneSystemAccount
  | amountCheck (t : Table)
  | differentTransferAccounts
  | accountFkey (t : Table)
  | ledgerIdempotencyKey
  | transferIdempotencyKey
  | withdrawalIdempotencyKey
  | depositExternalReference
deriving DecidableEq, Repr

/-- The name of a table. -/
def Table.name : Table → String
  | accounts => "accounts"
  | ledgerEntries => "ledger_entries"
  | transfers => "transfers"
  | deposits => "deposits"
  | withdrawals => "withdrawals"
  | outbox => "outbox"

/-- The name that the driver reports for a violated constraint. -/
def Constraint.name : Constraint → String
  | pkey t => t.name ++ "_pkey"
  | oneAccountPerUser => "uq_one_account_per_user"
  | oneSystemAccount => "uq_one_system_account"
  | amountCheck t => t.name ++ "_amount_check"
  | differentTransferAccounts => "chk_different_transfer_accounts"
  | accountFkey t => t.name ++ "_account_id_fkey"
  | ledgerIdempotencyKey => "ledger_entries_idempotency_key_key"
  | transferIdempotencyKey => "transfers_idempotency_key_key"
  | withdrawalIdempotencyKey => "withdrawals_idempotency_key_key"
  | depositExternalReference => "deposits_external_reference_key"

/-- `part in constraint.name`. -/
def Constraint.mentions (c : Constraint) (part : String) : Bool :=
  decide (part.toList <:+: c.name.toList)

/-- A value of a unique constraint. A null value is never equal to another one. -/
inductive UniqueKey
  | pkey (t : Table) (id : UUID)
  | accountUser (user : UUID)
  | systemAccount
  | ledgerIdempotencyKey (key : String)
  | transferIdempotencyKey (key : String)
  | withdrawalIdempotencyKey (key : String)
  | depositExternalReference (ref : String)
deriving DecidableEq, Repr

/-- The constraint that a duplicate of the key violates. -/
def UniqueKey.constraint : UniqueKey → Constraint
  | pkey t _ => .pkey t
  | accountUser _ => .oneAccountPerUser
  | systemAccount => .oneSystemAccount
  | ledgerIdempotencyKey _ => .ledgerIdempotencyKey
  | transferIdempotencyKey _ => .transferIdempotencyKey
  | withdrawalIdempotencyKey _ => .withdrawalIdempotencyKey
  | depositExternalReference _ => .depositExternalReference

namespace Row

/-- The values that a row occupies in the unique constraints of its table. -/
def keys : Row α → List UniqueKey
  | account a =>
      [.pkey .accounts a.id,
        match a.userId with
        | some u => .accountUser u
        | none => .systemAccount]
  | ledger e => .pkey .ledgerEntries e.id :: (e.idempotencyKey.map .ledgerIdempotencyKey).toList
  | transfer t => [.pkey .transfers t.id, .transferIdempotencyKey t.idempotencyKey]
  | deposit d => [.pkey .deposits d.id, .depositExternalReference d.externalReference]
  | withdrawal w => [.pkey .withdrawals w.id, .withdrawalIdempotencyKey w.idempotencyKey]
  | outbox o => [.pkey .outbox o.id]

/-- The accounts that a row refers to, with the constraint that a missing one violates. -/
def foreignKeys : Row α → List (UUID × Constraint)
  | account _ => []
  | ledger e => [(e.accountId, .accountFkey .ledgerEntries)]
  | transfer t =>
      [(t.fromAccountId, .accountFkey .transfers), (t.toAccountId, .accountFkey .transfers)]
  | deposit _ => []
  | withdrawal w => [(w.accountId, .accountFkey .withdrawals)]
  | outbox _ => []

end Row

/-- The amount has at most 19 digits once it is rounded. -/
def amountFits (d : Decimal) : Bool := (Ticks.ofDecimal d).natAbs < 10 ^ 19

/-- The text fits a `VARCHAR(n)` column. -/
def varchar (n : ℕ) (s : String) : Bool := s.length ≤ n && !hasNull s

namespace Row

/-- Every value of the row fits the type of its column. The columns that the services fill from
constants are left out. -/
def fits : Row Decimal → Bool
  | account _ => true
  | ledger e =>
      amountFits e.amount && varchar 3 e.currency &&
        (e.idempotencyKey.map (varchar 255)).getD true
  | transfer t => amountFits t.amount && varchar 255 t.idempotencyKey
  | deposit d =>
      amountFits d.amount && varchar 3 d.currency && varchar 30 d.sourceType &&
        varchar 255 d.externalReference
  | withdrawal w =>
      amountFits w.amount && varchar 3 w.currency && varchar 30 w.destinationType &&
        w.destinationDetails.nullFree && varchar 255 w.idempotencyKey
  | outbox _ => true

/-- The first `CHECK` constraint that the stored row violates. -/
def failedCheck? : Row Ticks → Option Constraint
  | account _ => none
  | ledger e => if 0 < e.amount then none else some (.amountCheck .ledgerEntries)
  | transfer t =>
      if t.fromAccountId = t.toAccountId then some .differentTransferAccounts
      else if 0 < t.amount then none else some (.amountCheck .transfers)
  | deposit d => if 0 < d.amount then none else some (.amountCheck .deposits)
  | withdrawal w => if 0 < w.amount then none else some (.amountCheck .withdrawals)
  | outbox _ => none

end Row

end MiniWallet

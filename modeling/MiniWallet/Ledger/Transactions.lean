import MiniWallet.App
import MiniWallet.Ledger.Entries

/-!
# The transactions of the wallet

A service or a sweep commits transactions of a few kinds only. `Transaction` lists them with the
rows they write. `Justified σ T` is what a process has done in its session before it commits `T`:
where the identifiers come from, which balance was checked, which row was read again under lock, and
whether the rail has accepted. `Narrated σ T` is what the event in `T` says: it tells of the rows
that `T` writes, under an event identifier that was drawn for it.

`Committable`, `Sendable` and `Cacheable` are the conditions under which a process commits, calls
the rail and fills the cache. They speak only about the process's own session, so each program can
be checked for them on its own.
-/

namespace MiniWallet

open Numeric

/-- The transactions that the wallet commits. -/
inductive Transaction
  | empty
  | opened (a : Account) (event : OutboxRow)
  | seeded (e : Entry Decimal) (event : OutboxRow)
  | transferFailed (t : Transfer Decimal) (event : OutboxRow)
  | transferred (t : Transfer Decimal) (e : Entry Decimal) (event : OutboxRow)
  | depositRejected (d : Deposit Decimal) (set : DepositSet) (event : OutboxRow)
  | deposited (d : Deposit Decimal) (e : Entry Decimal) (set : DepositSet) (event : OutboxRow)
  | reserved (w : Withdrawal Decimal) (e : Entry Decimal) (event : OutboxRow)
  | submitted (id : UUID) (set : WithdrawalSet)
  /-- The updates `before` are flushed earlier in the same transaction. -/
  | completed (id : UUID) (before : List WithdrawalSet) (set : WithdrawalSet) (event : OutboxRow)
  | compensated (id : UUID) (before : List WithdrawalSet) (e : Entry Decimal) (set : WithdrawalSet)
      (event : OutboxRow)

namespace Transaction

/-- The writes of a transaction. -/
def writes : Transaction → List Write
  | empty => []
  | opened a event => [.insert (.account a), .insert (.outbox event)]
  | seeded e event =>
      [.insert (.ledger e.debit), .insert (.ledger e.credit), .insert (.outbox event)]
  | transferFailed t event => [.insert (.outbox event), .insert (.transfer t)]
  | transferred t e event =>
      [.insert (.ledger e.debit), .insert (.ledger e.credit), .insert (.outbox event),
        .insert (.transfer t)]
  | depositRejected d set event =>
      [.insert (.deposit d), .setDeposit d.id set, .insert (.outbox event)]
  | deposited d e set event =>
      [.insert (.deposit d), .setDeposit d.id set, .insert (.ledger e.credit),
        .insert (.ledger e.debit), .insert (.outbox event)]
  | reserved w e event =>
      [.insert (.withdrawal w), .insert (.ledger e.credit), .insert (.ledger e.debit),
        .insert (.outbox event)]
  | submitted id set => [.setWithdrawal id set]
  -- a sweep may have set `submitted` in the same transaction, hence the writes before the last one
  | completed id before set event =>
      before.map (.setWithdrawal id) ++ [.insert (.outbox event), .setWithdrawal id set]
  | compensated id before e set event =>
      before.map (.setWithdrawal id) ++
        [.insert (.ledger e.debit), .insert (.ledger e.credit), .insert (.outbox event),
          .setWithdrawal id set]

/-- The double entry of a transaction, if it moves money. -/
def entries : Transaction → List (Entry Decimal)
  | seeded e _ | transferred _ e _ | deposited _ e _ _ | reserved _ e _ | compensated _ _ e _ _ =>
      [e]
  | _ => []

end Transaction

/-- The session has read a balance of the account, under lock, that covers the amount. -/
def Session.Covers (σ : Session) (account : UUID) (amount : Decimal) : Prop :=
  ∃ b, (account, b) ∈ σ.balances ∧ ¬ amount.Exceeds moneyPlaces b

/-- Neither leg of the entry carries an idempotency key. -/
def Entry.Keyless {α : Type} (e : Entry α) : Prop :=
  e.debit.idempotencyKey = none ∧ e.credit.idempotencyKey = none

/-- The entry refunds the withdrawal, under the idempotency key of its reversal. -/
def Entry.Reverses {α : Type} (e : Entry α) (w : Withdrawal α) : Prop :=
  e.movement = w.reversal ∧ e.debit.idempotencyKey = none ∧
    e.credit.idempotencyKey = some (reversalKey w.id)

/-- The update that marks a withdrawal as submitted. -/
def WithdrawalSet.Submits (s : WithdrawalSet) : Prop :=
  s.status = .submitted ∧ s.externalReference = none ∧
    ∃ t, s.submittedAt = some t ∧ t ≤ s.updatedAt

/-- The update that marks a withdrawal as failed. -/
def WithdrawalSet.Fails (s : WithdrawalSet) : Prop :=
  s.status = .failed ∧ s.externalReference = none ∧ s.submittedAt = none

/-- What a process has done before it commits a transaction. -/
inductive Justified (σ : Session) : Transaction → Prop
  | empty : Justified σ .empty
  | opened {a : Account} {event : OutboxRow} :
      a.id ∈ σ.drawn → a.userId.isSome → Justified σ (.opened a event)
  | seeded {e : Entry Decimal} {event : OutboxRow} :
      e.transactionId ∈ σ.drawn → e.movement.kind = .seed → e.movement.reference = none →
      e.movement.source = systemAccountId → e.debit.idempotencyKey = none →
      e.credit.idempotencyKey.isSome → Justified σ (.seeded e event)
  | transferFailed {t : Transfer Decimal} {event : OutboxRow} :
      t.id ∈ σ.drawn → t.status = .failed → Justified σ (.transferFailed t event)
  | transferred {t : Transfer Decimal} {e : Entry Decimal} {event : OutboxRow} :
      t.id ∈ σ.drawn → e.transactionId ∈ σ.drawn → t.status = .completed →
      e.movement = t.movement → e.Keyless → σ.Covers t.fromAccountId t.amount →
      Justified σ (.transferred t e event)
  | depositRejected {d : Deposit Decimal} {set : DepositSet} {event : OutboxRow} :
      d.id ∈ σ.drawn → set.status = .rejected → Justified σ (.depositRejected d set event)
  | deposited {d : Deposit Decimal} {e : Entry Decimal} {set : DepositSet} {event : OutboxRow} :
      d.id ∈ σ.drawn → e.transactionId ∈ σ.drawn → set.status = .completed →
      e.movement = d.movement → e.Keyless → d.accountId ≠ systemAccountId →
      Justified σ (.deposited d e set event)
  | reserved {w : Withdrawal Decimal} {e : Entry Decimal} {event : OutboxRow} :
      w.id ∈ σ.drawn → e.transactionId ∈ σ.drawn → w.status = .pending →
      w.externalReference = none → w.accountId ≠ systemAccountId → e.movement = w.reservation →
      e.Keyless → σ.Covers w.accountId w.amount → σ.owned = none → Justified σ (.reserved w e event)
  -- the next three are for the process that has reserved the funds
  | submitted {w : Withdrawal Decimal} {set : WithdrawalSet} :
      σ.owned = some w → σ.rows = [] → w.status = .pending → w.id ∉ σ.accepted → set.Submits →
      Justified σ (.submitted w.id set)
  | completed {w : Withdrawal Decimal} {set : WithdrawalSet} {event : OutboxRow} :
      σ.owned = some w → σ.rows = [] → w.status = .submitted → w.id ∈ σ.accepted →
      set.status = .completed → Justified σ (.completed w.id [] set event)
  | compensated {w : Withdrawal Decimal} {e : Entry Decimal} {set : WithdrawalSet}
      {event : OutboxRow} :
      σ.owned = some w → σ.rows = [] → w.status = .submitted → w.id ∉ σ.accepted →
      e.transactionId ∈ σ.drawn → e.Reverses w → set.Fails →
      Justified σ (.compensated w.id [] e set event)
  -- the rest is for a sweep, which owns no withdrawal and resolves a row that it has locked
  | recoveredCompleted {row : Withdrawal Ticks} {before : List WithdrawalSet} {set : WithdrawalSet}
      {event : OutboxRow} :
      σ.owned = none → row ∈ σ.rows → set.status = .completed →
      (row.status = .pending ∧ row.id ∈ σ.accepted ∨
        row.status = .submitted ∧ row.externalReference ≠ none) →
      Justified σ (.completed row.id before set event)
  | recoveredCompensated {row : Withdrawal Ticks} {before : List WithdrawalSet} {e : Entry Decimal}
      {set : WithdrawalSet} {event : OutboxRow} :
      σ.owned = none → row ∈ σ.rows → e.transactionId ∈ σ.drawn → e.Reverses row.loaded →
      set.Fails →
      (row.status = .pending ∧ row.id ∉ σ.accepted ∨
        row.status = .submitted ∧ row.externalReference ≠ none ∨
        -- the hard timeout, without an answer of the rail
        row.status = .submitted ∧ before = [] ∧ set.failureCode = some "TIMEOUT" ∧
          ∃ t, set.completedAt = some t ∧
            row.updatedAt + minutes SagaRecovery.hardTimeoutMinutes < t) →
      Justified σ (.compensated row.id before e set event)

/-- The outbox row publishes the payload, under its type and topic and with an event identifier
among those drawn. -/
structure OutboxRow.Publishes (event : OutboxRow) (drawn : List UUID) (payload : EventPayload) :
    Prop where
  topic : event.topic = payload.topic
  eventType : event.eventType = payload.eventType
  envelopeType : event.payload.eventType = payload.eventType
  payload : event.payload.payload = payload
  eventId : ∃ id ∈ drawn, event.payload.eventId = id.str

/-- The object is the withdrawal that the process has created, or one that it has read again. -/
def Session.Holds (σ : Session) (w : Withdrawal Decimal) : Prop :=
  σ.owned = some w ∨ ∃ row ∈ σ.rows, w.reservation = row.loaded.reservation

/-- What the event of a transaction says. Amounts are rendered with four places, apart from those of
deposits, which are rendered as they are. -/
inductive Narrated (σ : Session) : Transaction → Prop
  | empty : Narrated σ .empty
  | opened {a : Account} {user : UUID} {event : OutboxRow} : a.userId = some user →
      event.Publishes σ.drawn (.accountOpened
        { accountId := a.id.str, userId := user.str, status := a.status }) →
      Narrated σ (.opened a event)
  | seeded {e : Entry Decimal} {actor : UUID} {event : OutboxRow} : e.movement.currency = "USD" →
      event.Publishes σ.drawn (.seedCompleted
        { accountId := e.movement.target.str
          userId := actor.str
          amount := money e.movement.amount
          currency := e.movement.currency
          entryType := "seed" }) →
      Narrated σ (.seeded e event)
  | transferFailed {t : Transfer Decimal} {event : OutboxRow} : t.currency = "USD" →
      event.Publishes σ.drawn (.transferFailed
        { transferId := t.id.str
          fromAccountId := t.fromAccountId.str
          toAccountId := t.toAccountId.str
          amount := money t.amount
          currency := t.currency
          failureCode := "INSUFFICIENT_BALANCE"
          entryType := "transfer"
          idempotencyKey := t.idempotencyKey }) →
      Narrated σ (.transferFailed t event)
  | transferred {t : Transfer Decimal} {e : Entry Decimal} {event : OutboxRow} :
      t.currency = "USD" →
      event.Publishes σ.drawn (.transferCompleted
        { transferId := t.id.str
          fromAccountId := t.fromAccountId.str
          toAccountId := t.toAccountId.str
          amount := money t.amount
          currency := t.currency
          entryType := "transfer"
          idempotencyKey := t.idempotencyKey }) →
      Narrated σ (.transferred t e event)
  | depositRejected {d : Deposit Decimal} {set : DepositSet} {reason : String}
      {event : OutboxRow} : set.rejectionReason = some reason →
      event.Publishes σ.drawn (.depositRejected
        { depositId := d.id.str
          accountId := d.accountId.str
          amount := d.amount.str
          currency := d.currency
          entryType := "deposit"
          rejectionReason := reason }) →
      Narrated σ (.depositRejected d set event)
  | deposited {d : Deposit Decimal} {e : Entry Decimal} {set : DepositSet} {event : OutboxRow} :
      d.currency ∈ supportedCurrencies →
      event.Publishes σ.drawn (.depositCompleted
        { depositId := d.id.str
          accountId := d.accountId.str
          amount := d.amount.str
          currency := d.currency
          sourceType := d.sourceType
          entryType := "deposit"
          externalReference := d.externalReference }) →
      Narrated σ (.deposited d e set event)
  | reserved {w : Withdrawal Decimal} {e : Entry Decimal} {event : OutboxRow} :
      event.Publishes σ.drawn (.withdrawalInitiated
        { withdrawalId := w.id.str
          accountId := w.accountId.str
          amount := money w.amount
          currency := w.currency
          destinationType := w.destinationType
          entryType := "withdrawal" }) →
      Narrated σ (.reserved w e event)
  | submitted {id : UUID} {set : WithdrawalSet} : Narrated σ (.submitted id set)
  | completed {w : Withdrawal Decimal} {before : List WithdrawalSet} {set : WithdrawalSet}
      {reference : String} {event : OutboxRow} : σ.Holds w →
      set.externalReference = some reference →
      event.Publishes σ.drawn (.withdrawalCompleted
        { withdrawalId := w.id.str
          accountId := w.accountId.str
          amount := money w.amount
          currency := w.currency
          externalReference := reference
          entryType := "withdrawal" }) →
      Narrated σ (.completed w.id before set event)
  | compensated {id : UUID} {before : List WithdrawalSet} {e : Entry Decimal}
      {set : WithdrawalSet} {code : String} {event : OutboxRow} : set.failureCode = some code →
      event.Publishes σ.drawn (.withdrawalFailed
        { withdrawalId := id.str
          accountId := e.movement.target.str
          amount := money e.movement.amount
          currency := e.movement.currency
          failureCode := code
          entryType := "withdrawal_reversal" }) →
      Narrated σ (.compensated id before e set event)

/-- The open transaction is one of the wallet's, it is justified, and its event tells of it. -/
def Committable (σ : Session) : Prop :=
  ∃ T, σ.writes = T.writes ∧ Justified σ T ∧ Narrated σ T

/-- The conditions under which a withdrawal is sent to the rail: its creator has committed it as
submitted, or a sweep holds its row and has read it as pending. -/
inductive Sendable (σ : Session) : UUID → Prop
  | owner {w : Withdrawal Decimal} : σ.owned = some w → σ.rows = [] → w.status = .submitted →
      w.id ∉ σ.accepted → Sendable σ w.id
  | sweep {row : Withdrawal Ticks} : σ.owned = none → row ∈ σ.rows → row.status = .pending →
      row.id ∉ σ.accepted → Sendable σ row.id

section Cache

variable (sha256 : String → String)

/-- What Redis keeps for a transfer. -/
def Transfer.cacheEntry (t : Transfer Decimal) : CacheEntry :=
  { requestHash := t.hash sha256, response := .transfer (transferToResponse t) }

/-- What Redis keeps for a withdrawal. -/
def Withdrawal.cacheEntry (w : Withdrawal Decimal) : CacheEntry where
  requestHash :=
    hashWithdrawal sha256 w.accountId w.amount w.currency w.destinationType w.destinationDetails
  response := .withdrawal (withdrawalToResponse w)

/-- The conditions under which an entry is put into Redis: it describes an object that the process
has committed, or a completed transfer that it has read. -/
inductive Cacheable (σ : Session) : String → CacheEntry → Prop
  | transferred {t : Transfer Decimal} : .transfer t ∈ σ.committed → t.status = .completed →
      Cacheable σ (transferCacheKey t.idempotencyKey) (t.cacheEntry sha256)
  | replayed {t : Transfer Ticks} : t ∈ σ.seen → t.status = .completed →
      Cacheable σ (transferCacheKey t.idempotencyKey) (t.loaded.cacheEntry sha256)
  | reserved {w : Withdrawal Decimal} : .withdrawal w ∈ σ.committed →
      Cacheable σ (withdrawalCacheKey w.idempotencyKey) (w.cacheEntry sha256)

end Cache

end MiniWallet

import MiniWallet.Services.Withdrawal

/-!
# Saga recovery

The worker that finds withdrawals that have not finished and resolves them, each in a transaction
that holds the row's lock from the second read to the commit. The call of the rail happens inside
that transaction.
-/

namespace MiniWallet

open Numeric Program

namespace SagaRecovery

/-- `STUCK_THRESHOLD_MINUTES`. -/
def stuckThresholdMinutes : ℤ := 5

/-- `HARD_TIMEOUT_MINUTES`. -/
def hardTimeoutMinutes : ℤ := 30

/-- `BATCH_LIMIT`. -/
def batchLimit : ℕ := 20

/-- Write the reversal legs and mark the withdrawal as failed. -/
def compensate (withdrawal : Withdrawal Decimal) (failureCode : String) : Program Unit := do
  let txnId ← uuid4
  let at_ ← now
  let debitId ← uuid4
  let debitLeg : LedgerEntry Decimal :=
    { id := debitId
      transactionId := txnId
      accountId := systemAccountId
      direction := .debit
      amount := withdrawal.amount
      currency := withdrawal.currency
      entryType := .withdrawalReversal
      referenceId := some withdrawal.id
      createdAt := at_ }
  -- the key of the credit is the one that the service uses as well
  let creditId ← uuid4
  let creditLeg : LedgerEntry Decimal :=
    { id := creditId
      transactionId := txnId
      accountId := withdrawal.accountId
      direction := .credit
      amount := withdrawal.amount
      currency := withdrawal.currency
      entryType := .withdrawalReversal
      referenceId := some withdrawal.id
      idempotencyKey := some (reversalKey withdrawal.id)
      createdAt := at_ }
  let event ← publishEvent "withdrawal.events" "withdrawal.failed"
    (.withdrawalFailed
      { withdrawalId := withdrawal.id.str
        accountId := withdrawal.accountId.str
        amount := money withdrawal.amount
        currency := withdrawal.currency
        failureCode := failureCode
        entryType := "withdrawal_reversal" })
    none
  -- the listener sets `updated_at` when the update is flushed
  let updatedAt ← now
  let set : WithdrawalSet :=
    { status := .failed
      failureCode := some failureCode
      completedAt := some at_
      updatedAt := updatedAt }
  flush [.insert (.ledger debitLeg), .insert (.ledger creditLeg), .insert (.outbox event),
    .setWithdrawal withdrawal.id set]

/-- Mark the withdrawal as completed. -/
def complete (withdrawal : Withdrawal Decimal) (externalReference : String) : Program Unit := do
  let at_ ← now
  let event ← publishEvent "withdrawal.events" "withdrawal.completed"
    (.withdrawalCompleted
      { withdrawalId := withdrawal.id.str
        accountId := withdrawal.accountId.str
        amount := money withdrawal.amount
        currency := withdrawal.currency
        externalReference := externalReference
        entryType := "withdrawal" })
    none
  -- `updated_at` is set when the session is flushed
  let updatedAt ← now
  let set : WithdrawalSet :=
    { status := .completed
      externalReference := some externalReference
      completedAt := some at_
      -- set only if it was not
      submittedAt := if withdrawal.submittedAt.isNone then some at_ else none
      updatedAt := updatedAt }
  flush [.insert (.outbox event), .setWithdrawal withdrawal.id set]

/-- Recovery of a withdrawal that never reached the rail: retry the call, or compensate if the
circuit is open. The status is flushed before the call but not committed. -/
def recoverPending (circuitBreaker : CircuitBreaker) (withdrawal : Withdrawal Decimal) :
    Program Unit := do
  if ← circuitBreaker.isCallAllowed then
    let submittedAt ← now
    let updatedAt ← now
    let set : WithdrawalSet :=
      { status := .submitted, submittedAt := some submittedAt, updatedAt := updatedAt }
    -- flushed, not committed: the row stays locked during the call of the rail
    flush [.setWithdrawal withdrawal.id set]
    let submitted := set.apply withdrawal
    match ← callRailOutcome (some circuitBreaker) submitted with
    | .ok reference => complete submitted reference
    | .error code => compensate submitted code
  else
    compensate withdrawal "CIRCUIT_OPEN"

/-- The answer of the rail to a status query, or `none` if the query fails. -/
def tryQueryStatus (externalReference : String) : Program (Option RailStatus) :=
  try
    let status ← queryStatus externalReference
    pure (some status)
  catch _ => pure none

/-- A text that is present and not empty. -/
def nonEmpty? (s : Option String) : Option String := s.filter (· ≠ "")

/-- Recovery of a withdrawal that may have reached the rail: ask the rail if its reference is known,
and compensate after the hard timeout if it is not. -/
def recoverSubmitted (withdrawal : Withdrawal Decimal) : Program Unit := do
  let at_ ← now
  let hardTimeoutCutoff := at_ - minutes hardTimeoutMinutes
  -- an empty reference is falsy
  match nonEmpty? withdrawal.externalReference with
  | some reference =>
      match ← tryQueryStatus reference with
      | some status =>
          if status.state = "completed" then
            complete withdrawal reference
          else if status.state = "failed" then
            compensate withdrawal ((nonEmpty? status.reason).getD "RAIL_REJECTED")
          -- any other state leaves the row to a later sweep
          else pure ()
      -- the rail could not be asked
      | none =>
          if withdrawal.updatedAt < hardTimeoutCutoff then
            compensate withdrawal "TIMEOUT"
          else pure ()
  -- the rail may or may not have received the payment
  | none =>
      if withdrawal.updatedAt < hardTimeoutCutoff then
        compensate withdrawal "TIMEOUT"
      else pure ()

/-- Resolve one withdrawal, in its own transaction. -/
def resolveOne (circuitBreaker : CircuitBreaker) (withdrawalId : UUID) : Program Unit :=
  begin do
    match ← lockWithdrawal withdrawalId with
    | none => pure ()
    | some row =>
        match row.status with
        | .pending => recoverPending circuitBreaker row.loaded
        | .submitted => recoverSubmitted row.loaded
        | .completed => pure ()
        | .failed => pure ()

/-- Resolve the withdrawals in turn; a failure of one does not keep the others from being
resolved. -/
def resolveAll (circuitBreaker : CircuitBreaker) : List UUID → Program Unit
  | [] => pure ()
  | id :: ids => do
      try resolveOne circuitBreaker id
      catch _ => pure ()
      resolveAll circuitBreaker ids

/-- One sweep: claim the withdrawals that are stuck, then resolve them. -/
def recoverStuckWithdrawals (circuitBreaker : CircuitBreaker) : Program Unit := do
  let at_ ← now
  let cutoff := at_ - minutes stuckThresholdMinutes
  let stuckIds ← begin (claimStuck cutoff batchLimit)
  resolveAll circuitBreaker stuckIds

end SagaRecovery

end MiniWallet

import MiniWallet.Events.Schemas

/-!
# Parsing events

A payload travels as a dictionary of its fields. `modelDump` is what the publisher puts into the
envelope, and `parsePayload` is what a consumer makes of it, by the model that `PAYLOAD_MODELS`
registers for the event type. All fields are strings, and a model ignores fields it does not have.

* `parsePayload_modelDump`: a payload that was published under its type is read back.
-/

namespace MiniWallet

/-- The fields of a payload. -/
abbrev Fields := List (String × String)

namespace EventPayload

/-- `payload.model_dump()`. -/
def modelDump : EventPayload → Fields
  | transferCompleted p =>
      [("transfer_id", p.transferId), ("from_account_id", p.fromAccountId),
        ("to_account_id", p.toAccountId), ("amount", p.amount), ("currency", p.currency),
        ("entry_type", p.entryType), ("idempotency_key", p.idempotencyKey)]
  | transferFailed p =>
      [("transfer_id", p.transferId), ("from_account_id", p.fromAccountId),
        ("to_account_id", p.toAccountId), ("amount", p.amount), ("currency", p.currency),
        ("failure_code", p.failureCode), ("entry_type", p.entryType),
        ("idempotency_key", p.idempotencyKey)]
  | accountOpened p =>
      [("account_id", p.accountId), ("user_id", p.userId), ("status", p.status)]
  | seedCompleted p =>
      [("account_id", p.accountId), ("user_id", p.userId), ("amount", p.amount),
        ("currency", p.currency), ("entry_type", p.entryType)]
  | depositCompleted p =>
      [("deposit_id", p.depositId), ("account_id", p.accountId), ("amount", p.amount),
        ("currency", p.currency), ("source_type", p.sourceType), ("entry_type", p.entryType),
        ("external_reference", p.externalReference)]
  | depositRejected p =>
      [("deposit_id", p.depositId), ("account_id", p.accountId), ("amount", p.amount),
        ("currency", p.currency), ("entry_type", p.entryType),
        ("rejection_reason", p.rejectionReason)]
  | withdrawalInitiated p =>
      [("withdrawal_id", p.withdrawalId), ("account_id", p.accountId), ("amount", p.amount),
        ("currency", p.currency), ("destination_type", p.destinationType),
        ("entry_type", p.entryType)]
  | withdrawalCompleted p =>
      [("withdrawal_id", p.withdrawalId), ("account_id", p.accountId), ("amount", p.amount),
        ("currency", p.currency), ("external_reference", p.externalReference),
        ("entry_type", p.entryType)]
  | withdrawalFailed p =>
      [("withdrawal_id", p.withdrawalId), ("account_id", p.accountId), ("amount", p.amount),
        ("currency", p.currency), ("failure_code", p.failureCode), ("entry_type", p.entryType)]

end EventPayload

/-- What a consumer gets as the payload: a model that the read models use, or something else, a
dictionary of an unknown type or the payload of a scheduled payment. -/
abbrev ParsedPayload := Option EventPayload

/-- The fields of the payloads of scheduled payments. -/
def paymentFields : String → Option (List String)
  | "payment.executed" =>
      some ["scheduled_payment_id", "transfer_id", "amount", "currency", "from_account_id",
        "to_account_id"]
  | "payment.skipped" =>
      some ["scheduled_payment_id", "amount", "currency", "from_account_id", "to_account_id",
        "skip_reason"]
  | _ => none

/-- The payload of an event, by the model for its type; `none` is a `ValidationError`. -/
def parsePayload (eventType : String) (fields : Fields) : Option ParsedPayload :=
  let get (name : String) : Option String := fields.lookup name
  match eventType with
  | "transfer.completed" => do
      return some (.transferCompleted
        { transferId := ← get "transfer_id"
          fromAccountId := ← get "from_account_id"
          toAccountId := ← get "to_account_id"
          amount := ← get "amount"
          currency := ← get "currency"
          entryType := ← get "entry_type"
          idempotencyKey := ← get "idempotency_key" })
  | "transfer.failed" => do
      return some (.transferFailed
        { transferId := ← get "transfer_id"
          fromAccountId := ← get "from_account_id"
          toAccountId := ← get "to_account_id"
          amount := ← get "amount"
          currency := ← get "currency"
          failureCode := ← get "failure_code"
          entryType := ← get "entry_type"
          idempotencyKey := ← get "idempotency_key" })
  | "account.opened" => do
      return some (.accountOpened
        { accountId := ← get "account_id"
          userId := ← get "user_id"
          status := ← get "status" })
  | "seed.completed" => do
      return some (.seedCompleted
        { accountId := ← get "account_id"
          userId := ← get "user_id"
          amount := ← get "amount"
          currency := ← get "currency"
          entryType := ← get "entry_type" })
  | "deposit.completed" => do
      return some (.depositCompleted
        { depositId := ← get "deposit_id"
          accountId := ← get "account_id"
          amount := ← get "amount"
          currency := ← get "currency"
          sourceType := ← get "source_type"
          entryType := ← get "entry_type"
          externalReference := ← get "external_reference" })
  | "deposit.rejected" => do
      return some (.depositRejected
        { depositId := ← get "deposit_id"
          accountId := ← get "account_id"
          amount := ← get "amount"
          currency := ← get "currency"
          entryType := ← get "entry_type"
          rejectionReason := ← get "rejection_reason" })
  | "withdrawal.initiated" => do
      return some (.withdrawalInitiated
        { withdrawalId := ← get "withdrawal_id"
          accountId := ← get "account_id"
          amount := ← get "amount"
          currency := ← get "currency"
          destinationType := ← get "destination_type"
          entryType := ← get "entry_type" })
  | "withdrawal.completed" => do
      return some (.withdrawalCompleted
        { withdrawalId := ← get "withdrawal_id"
          accountId := ← get "account_id"
          amount := ← get "amount"
          currency := ← get "currency"
          externalReference := ← get "external_reference"
          entryType := ← get "entry_type" })
  | "withdrawal.failed" => do
      return some (.withdrawalFailed
        { withdrawalId := ← get "withdrawal_id"
          accountId := ← get "account_id"
          amount := ← get "amount"
          currency := ← get "currency"
          failureCode := ← get "failure_code"
          entryType := ← get "entry_type" })
  | other =>
      match paymentFields other with
      | some names => if names.all fun name => (get name).isSome then some none else none
      | none => some none

/-- `parse_event` of an envelope; `none` is a `ValidationError`. -/
def parseEvent (raw : EventEnvelope) : Option ParsedPayload :=
  parsePayload raw.eventType raw.payload.modelDump

/-- A payload that was published under its type is read back. -/
theorem parsePayload_modelDump (p : EventPayload) :
    parsePayload p.eventType p.modelDump = some (some p) := by
  cases p <;> rfl

end MiniWallet

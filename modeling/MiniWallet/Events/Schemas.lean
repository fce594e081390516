import MiniWallet.Schema.Values

/-!
# Event contracts

The payloads of the events that the services and the saga recovery publish, one structure for each
event type, and the envelope that wraps them. Identifiers and amounts are text, as they are on the
wire.
-/

namespace MiniWallet

/-- Payload of `transfer.completed`. -/
structure TransferCompletedPayload where
  transferId : String
  fromAccountId : String
  toAccountId : String
  amount : String
  currency : String
  entryType : String
  idempotencyKey : String
deriving DecidableEq, Repr

/-- Payload of `transfer.failed`. -/
structure TransferFailedPayload where
  transferId : String
  fromAccountId : String
  toAccountId : String
  amount : String
  currency : String
  failureCode : String
  entryType : String
  idempotencyKey : String
deriving DecidableEq, Repr

/-- Payload of `account.opened`. -/
structure AccountOpenedPayload where
  accountId : String
  userId : String
  status : String
deriving DecidableEq, Repr

/-- Payload of `seed.completed`. -/
structure SeedCompletedPayload where
  accountId : String
  userId : String
  amount : String
  currency : String
  entryType : String
deriving DecidableEq, Repr

/-- Payload of `deposit.completed`. -/
structure DepositCompletedPayload where
  depositId : String
  accountId : String
  amount : String
  currency : String
  sourceType : String
  entryType : String
  externalReference : String
deriving DecidableEq, Repr

/-- Payload of `deposit.rejected`. -/
structure DepositRejectedPayload where
  depositId : String
  accountId : String
  amount : String
  currency : String
  entryType : String
  rejectionReason : String
deriving DecidableEq, Repr

/-- Payload of `withdrawal.initiated`. -/
structure WithdrawalInitiatedPayload where
  withdrawalId : String
  accountId : String
  amount : String
  currency : String
  destinationType : String
  entryType : String
deriving DecidableEq, Repr

/-- Payload of `withdrawal.completed`. -/
structure WithdrawalCompletedPayload where
  withdrawalId : String
  accountId : String
  amount : String
  currency : String
  externalReference : String
  entryType : String
deriving DecidableEq, Repr

/-- Payload of `withdrawal.failed`. -/
structure WithdrawalFailedPayload where
  withdrawalId : String
  accountId : String
  amount : String
  currency : String
  failureCode : String
  entryType : String
deriving DecidableEq, Repr

/-- The payloads, tagged with their event type. -/
inductive EventPayload
  | transferCompleted (p : TransferCompletedPayload)
  | transferFailed (p : TransferFailedPayload)
  | accountOpened (p : AccountOpenedPayload)
  | seedCompleted (p : SeedCompletedPayload)
  | depositCompleted (p : DepositCompletedPayload)
  | depositRejected (p : DepositRejectedPayload)
  | withdrawalInitiated (p : WithdrawalInitiatedPayload)
  | withdrawalCompleted (p : WithdrawalCompletedPayload)
  | withdrawalFailed (p : WithdrawalFailedPayload)
deriving DecidableEq, Repr

namespace EventPayload

/-- The event type under which `PAYLOAD_MODELS` registers the model of the payload. -/
def eventType : EventPayload → String
  | transferCompleted _ => "transfer.completed"
  | transferFailed _ => "transfer.failed"
  | accountOpened _ => "account.opened"
  | seedCompleted _ => "seed.completed"
  | depositCompleted _ => "deposit.completed"
  | depositRejected _ => "deposit.rejected"
  | withdrawalInitiated _ => "withdrawal.initiated"
  | withdrawalCompleted _ => "withdrawal.completed"
  | withdrawalFailed _ => "withdrawal.failed"

/-- The topic that the services publish the payload to. -/
def topic : EventPayload → String
  | transferCompleted _ | transferFailed _ => "transfer.events"
  | accountOpened _ | seedCompleted _ => "account.events"
  | depositCompleted _ | depositRejected _ => "deposit.events"
  | withdrawalInitiated _ | withdrawalCompleted _ | withdrawalFailed _ => "withdrawal.events"

end EventPayload

/-- The wrapper around every event. -/
structure EventEnvelope where
  eventId : String
  eventType : String
  occurredAt : Time
  version : String
  actorId : Option String
  payload : EventPayload
deriving DecidableEq, Repr

end MiniWallet

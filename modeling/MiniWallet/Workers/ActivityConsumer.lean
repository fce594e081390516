import MiniWallet.Events.Wire
import MiniWallet.Schema.Database
import MiniWallet.Schema.Identifiers

/-!
# Activity consumer

The consumer that builds the read model `transaction_activity` from the events. One event is one
transaction: either all of its rows are committed or none. A violated constraint is taken for a
duplicate and ignored; every other exception is raised.

The primary key of a row is random and is left out.

`process` takes the event itself, and `processMessage` the decoded message of an event.

* `processMessage_eq`: both do the same, on the message of an event whose time a `datetime` can
  hold.
-/

namespace MiniWallet

open Numeric Python

/-- A row of `transaction_activity`. -/
structure TransactionActivity (Amount : Type) where
  eventId : UUID
  accountId : UUID
  direction : Direction
  amount : Amount
  currency : String
  entryType : String
  referenceId : Option UUID
  occurredAt : Time
deriving DecidableEq, Repr

namespace TransactionActivity

/-- The row that the table holds after an object has been inserted. -/
def stored (r : TransactionActivity Decimal) : TransactionActivity Ticks :=
  { r with amount := Ticks.ofDecimal r.amount }

/-- The values of `uq_activity_event_account`. -/
def key {α : Type} (r : TransactionActivity α) : UUID × UUID := (r.eventId, r.accountId)

/-- Every value of the row fits the type of its column. -/
def fits (r : TransactionActivity Decimal) : Bool :=
  amountFits r.amount && varchar 3 r.currency && varchar 30 r.entryType

end TransactionActivity

namespace ActivityConsumer

/-- The exceptions that `process` can meet. -/
inductive Exn
  /-- Raised by `parse_event`. -/
  | validationError
  /-- Raised by `uuid.UUID`. -/
  | valueError
  /-- Raised by `Decimal`. -/
  | invalidOperation
  | dataError
  | integrityError
deriving DecidableEq, Repr

/-- `uuid.UUID(text)`. -/
def toUUID (text : String) : Except Exn UUID :=
  match UUID.parse text with
  | some id => .ok id
  | none => .error .valueError

/-- `Decimal(text)`. -/
def toDecimal (text : String) : Except Exn Decimal :=
  match decimal (codePoints text) with
  | some d => .ok d
  | none => .error .invalidOperation

/-- A new row for an event. -/
def activity (envelope : EventEnvelope) (accountId : String) (direction : Direction)
    (amount currency entryType : String) (referenceId : Option String) :
    Except Exn (TransactionActivity Decimal) := do
  let eventId ← toUUID envelope.eventId
  let accountId ← toUUID accountId
  let amount ← toDecimal amount
  let referenceId ← referenceId.mapM toUUID
  return {
    eventId := eventId
    accountId := accountId
    direction := direction
    amount := amount
    currency := currency
    entryType := entryType
    referenceId := referenceId
    occurredAt := envelope.occurredAt }

/-- The rows that are added for an event. -/
def activities (envelope : EventEnvelope) :
    ParsedPayload → Except Exn (List (TransactionActivity Decimal))
  | some (.transferCompleted p) => do
      let debitActivity ← activity envelope p.fromAccountId .debit p.amount p.currency p.entryType
        (some p.transferId)
      let creditActivity ← activity envelope p.toAccountId .credit p.amount p.currency p.entryType
        (some p.transferId)
      return [debitActivity, creditActivity]
  | some (.seedCompleted p) => do
      return [← activity envelope p.accountId .credit p.amount p.currency p.entryType none]
  | some (.transferFailed _) => return []
  | some (.accountOpened _) => return []
  | some (.depositCompleted p) => do
      return [← activity envelope p.accountId .credit p.amount p.currency p.entryType
        (some p.depositId)]
  | some (.depositRejected _) => return []
  | some (.withdrawalInitiated p) => do
      return [← activity envelope p.accountId .debit p.amount p.currency p.entryType
        (some p.withdrawalId)]
  | some (.withdrawalCompleted _) => return []
  | some (.withdrawalFailed p) => do
      return [← activity envelope p.accountId .credit p.amount p.currency p.entryType
        (some p.withdrawalId)]
  | none => return []

/-- The table of the read model. -/
abbrev Table := List (TransactionActivity Ticks)

/-- `INSERT` of one row, with the constraints of the table. -/
def insert (db : Database) (table : Table) (row : TransactionActivity Decimal) : Except Exn Table :=
  if !row.fits then .error .dataError
  else if row.key ∈ table.map (·.key) then .error .integrityError
  else if (db.accountById row.accountId).isNone then .error .integrityError
  else .ok (row.stored :: table)

/-- The transaction of an event: the rows are flushed in order, and committed together. -/
def transaction (db : Database) (table : Table) (envelope : EventEnvelope)
    (payload : ParsedPayload) : Except Exn Table := do
  let rows ← activities envelope payload
  rows.foldlM (insert db) table

/-- `process`: the table after the event. -/
def process (db : Database) (table : Table) (event : EventEnvelope) : Except Exn Table :=
  match parseEvent event with
  | none => .error .validationError
  | some payload =>
      match transaction db table event payload with
      -- the transaction is rolled back, and the event is ignored
      | .error .integrityError => .ok table
      | result => result

/-! ## Messages -/

/-- `datetime.fromisoformat(text)`. -/
def toInstant (text : String) : Except Exn Time :=
  match fromisoformat (codePoints text) with
  | some t => .ok t.instant
  | none => .error .valueError

/-- What a payload says about a new row. -/
structure Draft where
  accountId : String
  direction : Direction
  amount : String
  currency : String
  entryType : String
  referenceId : Option String

/-- The rows that are added for a payload, in order. -/
def drafts : ParsedPayload → List Draft
  | some (.transferCompleted p) =>
      [⟨p.fromAccountId, .debit, p.amount, p.currency, p.entryType, some p.transferId⟩,
        ⟨p.toAccountId, .credit, p.amount, p.currency, p.entryType, some p.transferId⟩]
  | some (.seedCompleted p) => [⟨p.accountId, .credit, p.amount, p.currency, p.entryType, none⟩]
  | some (.transferFailed _) => []
  | some (.accountOpened _) => []
  | some (.depositCompleted p) =>
      [⟨p.accountId, .credit, p.amount, p.currency, p.entryType, some p.depositId⟩]
  | some (.depositRejected _) => []
  | some (.withdrawalInitiated p) =>
      [⟨p.accountId, .debit, p.amount, p.currency, p.entryType, some p.withdrawalId⟩]
  | some (.withdrawalCompleted _) => []
  | some (.withdrawalFailed p) =>
      [⟨p.accountId, .credit, p.amount, p.currency, p.entryType, some p.withdrawalId⟩]
  | none => []

/-- A new row for a message. -/
def Draft.row (envelope : RawEnvelope) (d : Draft) : Except Exn (TransactionActivity Decimal) := do
  let eventId ← toUUID envelope.eventId
  let accountId ← toUUID d.accountId
  let amount ← toDecimal d.amount
  let referenceId ← d.referenceId.mapM toUUID
  let occurredAt ← toInstant envelope.occurredAt
  return {
    eventId := eventId
    accountId := accountId
    direction := d.direction
    amount := amount
    currency := d.currency
    entryType := d.entryType
    referenceId := referenceId
    occurredAt := occurredAt }

/-- The transaction of a message. -/
def messageTransaction (db : Database) (table : Table) (envelope : RawEnvelope)
    (payload : ParsedPayload) : Except Exn Table := do
  let rows ← (drafts payload).mapM (·.row envelope)
  rows.foldlM (insert db) table

/-- `process` on a decoded message: the table after it. -/
def processMessage (db : Database) (table : Table) (event : JsonValue) : Except Exn Table :=
  match parseMessage event with
  | none => .error .validationError
  | some (envelope, payload) =>
      match messageTransaction db table envelope payload with
      | .error .integrityError => .ok table
      | result => result

/-- The time of an event is read back. -/
theorem toInstant_isoText {t : Time} (h : InDatetime t) : toInstant (isoText t) = .ok t := by
  have hread := fromisoformat_isoformat h
  obtain ⟨dt, hdt, hinstant⟩ := Option.map_eq_some_iff.mp hread
  rw [toInstant, codePoints_isoText, hdt, ← hinstant]

/-- A row for the message of an event is the row for the event. -/
theorem row_eq {raw : RawEnvelope} {e : EventEnvelope} (h : raw.Carries e)
    (htime : InDatetime e.occurredAt) (d : Draft) :
    d.row raw =
      activity e d.accountId d.direction d.amount d.currency d.entryType d.referenceId := by
  simp only [Draft.row, activity, h.eventId, h.occurredAt, toInstant_isoText htime]
  rfl

/-- The rows for the message of an event are the rows for the event. -/
theorem rows_eq {raw : RawEnvelope} {e : EventEnvelope} (h : raw.Carries e)
    (htime : InDatetime e.occurredAt) (payload : ParsedPayload) :
    (drafts payload).mapM (·.row raw) = activities e payload := by
  simp only [row_eq h htime]
  match payload with
  | none => rfl
  | some (.transferCompleted p) | some (.seedCompleted p) | some (.transferFailed p)
  | some (.accountOpened p) | some (.depositCompleted p) | some (.depositRejected p)
  | some (.withdrawalInitiated p) | some (.withdrawalCompleted p) | some (.withdrawalFailed p) =>
      simp only [drafts, activities, List.mapM_cons, List.mapM_nil, bind_assoc, pure_bind]

/-- On the message of an event, the consumer does what it does on the event. -/
theorem processMessage_eq {db : Database} {table : Table} {e : EventEnvelope} {event : JsonValue}
    (h : e.Decodes event) (htype : e.eventType = e.payload.eventType)
    (htime : InDatetime e.occurredAt) : processMessage db table event = process db table e := by
  obtain ⟨raw, hparse, hraw⟩ := parseMessage_decodes h htype
  have hevent : parseEvent e = some (some e.payload) := by
    rw [parseEvent, htype, parsePayload_modelDump]
  have htransaction : messageTransaction db table raw (some e.payload) =
      transaction db table e (some e.payload) := by
    rw [messageTransaction, rows_eq hraw htime, transaction]
  rw [processMessage, hparse, process, hevent]
  dsimp only
  rw [htransaction]

end ActivityConsumer

end MiniWallet

import MiniWallet.Numeric.Sha1
import MiniWallet.Python.Datetime
import MiniWallet.Schema.Database
import MiniWallet.Workers.OutboxRelay

/-!
# Backfill

The management command that writes outbox rows for the accounts, transfers and seeds that were there
before events were published. Every row is inserted in a transaction of its own, so a run that
crashes leaves the rows that it has inserted so far. The identifier of an event is made of the name
of the entity, so that it is the same in every run.

* `backfill`: the command, with and without `force`.
* `Entity`, `Entity.row`: the rows that it inserts, by the entity that a row is about.
* `backfills`: any number of runs, with crashes between any two steps, while the database changes.
-/

namespace MiniWallet

open Process Numeric

/-- The object that a query loads from a row of `ledger_entries`. -/
abbrev LedgerEntry.loaded : LedgerEntry Ticks → LedgerEntry Decimal :=
  LedgerEntry.map Ticks.toDecimal

/-- The version of an identifier. -/
def UUID.version (u : UUID) : ℕ := u.bits.toNat / 2 ^ 76 % 16

/-- `uuid.uuid5(namespace, name)`: the first 16 bytes of the digest, with the bits of the version
and of the variant overwritten. -/
def UUID.v5 (space : UUID) (name : String) : UUID :=
  let s := Sha1.digest (Sha256.bytesOf 16 space.bits.toNat ++ Sha256.utf8 name)
  let n := ((s.a * 2 ^ 32 + s.b) * 2 ^ 32 + s.c) * 2 ^ 32 + s.d
  ⟨BitVec.ofNat 128 (n / 2 ^ 80 * 2 ^ 80 + 5 * 2 ^ 76 + n / 2 ^ 64 % 2 ^ 12 * 2 ^ 64 + 2 * 2 ^ 62 +
    n % 2 ^ 62)⟩

namespace BackfillEvents

/-- What a run awaits, or reads from outside. -/
inductive Op
  /-- The number of outbox rows with the event type `account.opened`. -/
  | countAccountOpened
  /-- The queries, each ordered by `created_at`. -/
  | accountRows
  | transferRows
  | seedRows
  /-- `datetime.now(timezone.utc)`. -/
  | now
  | uuid4
  /-- A transaction that inserts one row. -/
  | insert (row : OutboxRow)

/-- The value that an operation returns. A row of the seeds is joined with the owner of its
account. -/
def Op.Out : Op → Type
  | countAccountOpened => ℕ
  | accountRows => List Account
  | transferRows => List (Transfer Decimal)
  | seedRows => List (LedgerEntry Decimal × Option UUID)
  | now => Time
  | uuid4 => UUID
  | insert _ => Unit

/-- The exceptions that a run can raise. -/
inductive Exc
  | runtimeError (message : String)
  /-- Any other exception. -/
  | other
deriving DecidableEq, Repr

/-- A coroutine of the command. -/
abbrev Program := Prog Op Op.Out Exc

/-- `str(id)`. -/
def strOrNone (id : Option UUID) : String := (id.map UUID.str).getD "None"

/-- `failure_code or "UNKNOWN"`. -/
def orUnknown (failureCode : Option String) : String := (failureCode.filter (· ≠ "")).getD "UNKNOWN"

/-- `publish_event` with an event identifier, in a transaction of its own. -/
def publishEvent (topic eventType : String) (payload : EventPayload) (actorId : Option UUID)
    (eventId : String) : Program Unit := do
  let occurredAt : Time ← Prog.perform Op.now
  let id : UUID ← Prog.perform Op.uuid4
  Prog.perform (Op.insert
    { id := id
      topic := topic
      eventType := eventType
      payload :=
        { eventId := eventId
          eventType := eventType
          occurredAt := occurredAt
          version := "1"
          actorId := actorId.map UUID.str
          payload := payload } })

/-- `for row in rows`. -/
def forEach {α : Type} (body : α → Program Unit) : List α → Program Unit
  | [] => pure ()
  | row :: rows => do
      body row
      forEach body rows

/-- `BACKFILL_NAMESPACE`. -/
def backfillNamespace : UUID := ⟨0xb4cf1110000000000000000000000000⟩

example : (backfillNamespace.v5 "account.opened:00000000-0000-0000-0000-000000000001").str =
    "2dd1e206-3590-5be3-8448-49b3c2adf87a" := by decide +kernel

section Command

variable (uuid5 : String → UUID)

/-- `backfill_event_id`, with `uuid5` for the identifiers of `BACKFILL_NAMESPACE`. -/
def backfillEventId (entityType : String) (entityId : UUID) : String :=
  (uuid5 (entityType ++ ":" ++ entityId.str)).str

/-- The loop over the accounts. -/
def publishAccount (row : Account) : Program Unit :=
  publishEvent "account.events" "account.opened"
    (.accountOpened
      { accountId := row.id.str
        userId := strOrNone row.userId
        status := row.status })
    none (backfillEventId uuid5 "account.opened" row.id)

/-- The loop over the transfers. -/
def publishTransfer (row : Transfer Decimal) : Program Unit :=
  match row.status with
  | .completed =>
      publishEvent "transfer.events" "transfer.completed"
        (.transferCompleted
          { transferId := row.id.str
            fromAccountId := row.fromAccountId.str
            toAccountId := row.toAccountId.str
            amount := money row.amount
            currency := "USD"
            entryType := "transfer"
            idempotencyKey := row.idempotencyKey })
        none (backfillEventId uuid5 "transfer.completed" row.id)
  | .failed =>
      publishEvent "transfer.events" "transfer.failed"
        (.transferFailed
          { transferId := row.id.str
            fromAccountId := row.fromAccountId.str
            toAccountId := row.toAccountId.str
            amount := money row.amount
            currency := "USD"
            failureCode := orUnknown row.failureCode
            entryType := "transfer"
            idempotencyKey := row.idempotencyKey })
        none (backfillEventId uuid5 "transfer.failed" row.id)

/-- The loop over the seeds. -/
def publishSeed (row : LedgerEntry Decimal × Option UUID) : Program Unit :=
  publishEvent "account.events" "seed.completed"
    (.seedCompleted
      { accountId := row.1.accountId.str
        userId := strOrNone row.2
        amount := money row.1.amount
        currency := "USD"
        entryType := "seed" })
    none (backfillEventId uuid5 "seed.completed" row.1.id)

/-- The message of the preflight guard. -/
def alreadyRun (count : ℕ) : String :=
  "Backfill appears to have already run (" ++ toString count ++
    " account.opened outbox rows found). Pass force=True to override."

/-- The preflight guard, which `force` skips. -/
def preflight (force : Bool) : Program Unit :=
  if force then pure ()
  else do
    let count : ℕ ← Prog.perform Op.countAccountOpened
    if count > 0 then throw (.runtimeError (alreadyRun count)) else pure ()

/-- Generate outbox rows for all data. -/
def backfill (force : Bool) : Program Unit := do
  preflight force
  let accountRows : List Account ← Prog.perform Op.accountRows
  forEach (publishAccount uuid5) accountRows
  let transferRows : List (Transfer Decimal) ← Prog.perform Op.transferRows
  forEach (publishTransfer uuid5) transferRows
  let seedRows : List (LedgerEntry Decimal × Option UUID) ← Prog.perform Op.seedRows
  forEach (publishSeed uuid5) seedRows

end Command

/-! ## Entities -/

/-- What a row is about. A seed stands with the owner of its account. -/
inductive Entity
  | account (a : Account)
  | transfer (t : Transfer Ticks)
  | seed (e : LedgerEntry Ticks) (owner : Option UUID)
deriving DecidableEq

namespace Entity

/-- The identifier of the row of the entity. -/
def id : Entity → UUID
  | account a => a.id
  | transfer t => t.id
  | seed e _ => e.id

/-- The payload of the event of the entity. -/
def payload : Entity → EventPayload
  | account a => .accountOpened ⟨a.id.str, strOrNone a.userId, a.status⟩
  | transfer t =>
      match t.status with
      | .completed =>
          .transferCompleted ⟨t.id.str, t.fromAccountId.str, t.toAccountId.str,
            money (Ticks.toDecimal t.amount), "USD", "transfer", t.idempotencyKey⟩
      | .failed =>
          .transferFailed ⟨t.id.str, t.fromAccountId.str, t.toAccountId.str,
            money (Ticks.toDecimal t.amount), "USD", orUnknown t.failureCode, "transfer",
            t.idempotencyKey⟩
  | seed e owner =>
      .seedCompleted ⟨e.accountId.str, strOrNone owner, money (Ticks.toDecimal e.amount), "USD",
        "seed"⟩

variable (uuid5 : String → UUID)

/-- The name that the event identifier is made of. -/
def name (x : Entity) : String := x.payload.eventType ++ ":" ++ x.id.str

/-- The event of the entity. -/
def event (x : Entity) (occurredAt : Time) : EventEnvelope :=
  { eventId := (uuid5 x.name).str
    eventType := x.payload.eventType
    occurredAt := occurredAt
    version := "1"
    actorId := none
    payload := x.payload }

/-- The row that a run inserts for the entity. -/
def row (x : Entity) (id : UUID) (occurredAt : Time) : OutboxRow :=
  { id := id
    topic := x.payload.topic
    eventType := x.payload.eventType
    payload := x.event uuid5 occurredAt }

end Entity

/-- The result of a query that is ordered by `date`. -/
structure Query {α : Type} (table : List α) (date : α → Time) (rows : List α) : Prop where
  perm : rows.Perm table
  ordered : rows.Pairwise fun a b => date a ≤ date b

/-- Whether a list is the result of an ordered query is decidable. -/
instance {α : Type} [DecidableEq α] (table : List α) (date : α → Time) (rows : List α) :
    Decidable (Query table date rows) :=
  decidable_of_iff (rows.Perm table ∧ rows.Pairwise fun a b => date a ≤ date b)
    ⟨fun ⟨h, h'⟩ => ⟨h, h'⟩, fun h => ⟨h.perm, h.ordered⟩⟩

end BackfillEvents

namespace Database

/-- The accounts that have an owner. -/
def userAccounts (db : Database) : List Account := db.accounts.filter (·.userId.isSome)

/-- The credit legs of seeds. -/
def seeds (db : Database) : List (LedgerEntry Ticks) :=
  db.ledgerEntries.filter fun e => e.entryType = .seed && e.direction = .credit

/-- The owner of an account. -/
def owner (db : Database) (accountId : UUID) : Option UUID :=
  (db.accountById accountId).bind (·.userId)

open BackfillEvents in
/-- Everything that a backfill writes a row for. -/
def entities (db : Database) : List Entity :=
  db.userAccounts.map .account ++ db.transfers.map .transfer ++
    db.seeds.map fun e => .seed e (db.owner e.accountId)

open BackfillEvents in
/-- The entities whose rows a query finds. -/
def selected (db : Database) : BackfillEvents.Op → List Entity
  | .accountRows => db.userAccounts.map .account
  | .transferRows => db.transfers.map .transfer
  | .seedRows => db.seeds.map fun e => .seed e (db.owner e.accountId)
  | _ => []

end Database

namespace BackfillEvents

/-! ## The runs together -/

/-- What the runs work on. -/
structure Shared where
  /-- The other tables. -/
  db : Database
  /-- The table `outbox`. -/
  outbox : OutboxTable := []
  /-- The clock of the database. -/
  clock : Time := 0
  /-- The rows that runs have inserted, whatever became of them. -/
  inserted : List OutboxRow := []

/-- An operation can end with the result. Every operation can fail. -/
def Ends (s : Shared) : (o : Op) → Except Exc o.Out → Prop
  | .countAccountOpened, .ok n => n = s.outbox.countP fun row => row.eventType = "account.opened"
  | .accountRows, .ok rows => Query s.db.userAccounts (·.createdAt) rows
  | .transferRows, .ok rows =>
      ∃ stored, Query s.db.transfers (·.createdAt) stored ∧ rows = stored.map Transfer.loaded
  | .seedRows, .ok rows =>
      ∃ stored, Query s.db.seeds (·.createdAt) stored ∧
        rows = stored.map fun e => (e.loaded, s.db.owner e.accountId)
  | .now, .ok t => Python.InDatetime t
  | .insert row, .ok _ => row.id ∉ s.outbox.map (·.id)
  | _, _ => True

/-- The rows that a run has inserted, after an operation has ended. -/
def after : (o : Op) → Except Exc o.Out → List OutboxRow → List OutboxRow
  | .insert row, .ok _, σ => row :: σ
  | _, _, σ => σ

/-- What an operation that has ended does. -/
def effect : (o : Op) → Except Exc o.Out → Shared → Shared
  | .insert row, .ok _, s =>
      { s with
        outbox := s.outbox ++ [{ toOutboxRow := row, createdAt := s.clock }]
        inserted := row :: s.inserted }
  | _, _, s => s

end BackfillEvents

/-- Any number of runs of the command, while the tables change by `env`. A run knows the rows that
it has inserted. -/
def backfills (uuid5 : String → UUID) (force : Bool)
    (env : BackfillEvents.Shared → BackfillEvents.Shared → Prop) :
    System BackfillEvents.Op BackfillEvents.Op.Out BackfillEvents.Exc Unit BackfillEvents.Shared
      (List OutboxRow) where
  idle := []
  enabled := fun _ o r w => BackfillEvents.Ends w.shared o r
  after := BackfillEvents.after
  effect := fun o r _ => BackfillEvents.effect o r
  env := env
  start := fun p => p = BackfillEvents.backfill uuid5 force

namespace BackfillEvents

/-! ## Explicit schedules -/

/-- A number as an identifier. -/
def uuidOf (n : ℕ) : UUID := ⟨BitVec.ofNat 128 n⟩

/-- The schedules of the runs. The queries return the tables as they are, if these are ordered. A
hint is what the clock and `uuid4` return. -/
def player (uuid5 : String → UUID) (force : Bool) (env : Shared → Shared → Prop) :
    (backfills uuid5 force env).Player ℕ where
  spawn := fun _ => some ⟨backfill uuid5 force, rfl⟩
  -- a query can be played if the table is in the order that it asks for
  call := fun n _ o w =>
    match o with
    | .countAccountOpened => some ⟨.ok _, rfl⟩
    | .accountRows =>
        if h : Query w.shared.db.userAccounts (·.createdAt) w.shared.db.userAccounts then
          some ⟨.ok _, h⟩
        else none
    | .transferRows =>
        if h : Query w.shared.db.transfers (·.createdAt) w.shared.db.transfers then
          some ⟨.ok _, _, h, rfl⟩
        else none
    | .seedRows =>
        if h : Query w.shared.db.seeds (·.createdAt) w.shared.db.seeds then
          some ⟨.ok _, _, h, rfl⟩
        else none
    | .now => if h : Python.InDatetime n then some ⟨.ok (n : ℤ), h⟩ else none
    | .uuid4 => some ⟨.ok (uuidOf n), trivial⟩
    | .insert row =>
        if h : row.id ∉ w.shared.outbox.map fun queued : QueuedRow => queued.id then
          some ⟨.ok (), h⟩
        else none
  env := fun _ _ => none

/-- `n` operations of process `i`, with consecutive hints. -/
def steps (i n first : ℕ) : List (System.Move ℕ) :=
  (List.range n).map fun k => .call i (first + k)

/-- The process has run to its end. -/
def completed (p : Option (Program Unit)) : Bool :=
  match p with
  | some (.pure _) => true
  | _ => false

/-- A process that has run to its end has returned. -/
theorem eq_of_completed {p : Option (Program Unit)} (h : completed p) : p = some (pure ()) := by
  unfold completed at h
  split at h
  · rfl
  · cases h

end BackfillEvents

end MiniWallet

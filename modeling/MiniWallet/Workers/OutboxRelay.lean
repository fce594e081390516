import MiniWallet.Process.Interleaving
import MiniWallet.Schema.Tables

/-!
# The outbox relay

The worker that takes events from the outbox to Kafka. Claiming a batch, confirming it, recovering
rows of crashed relays and deleting old rows are one transaction each; no transaction is open while
a batch is being sent.

* `OutboxTable.claim`, `OutboxTable.merge`, `OutboxTable.recoverStuckRows`,
  `OutboxTable.cleanupPublishedRows`: what the transactions do to the table.
* `relayLoop`: the loop, for any number of iterations.
* `relay`: any number of relays over one table, with crashes between any two steps, while the
  services commit new rows.
-/

namespace MiniWallet

open Process

/-- `OutboxRow.status`. -/
inductive OutboxStatus
  | pending
  | publishing
  | published
  | failed
deriving DecidableEq, Repr

/-- A row of `outbox` with the columns that the relay keeps. -/
structure QueuedRow extends OutboxRow where
  status : OutboxStatus := .pending
  retryCount : ℕ := 0
  createdAt : Time
  publishedAt : Option Time := none
deriving DecidableEq, Repr

/-- A message to Kafka. The value stands for its JSON text. -/
structure KafkaMessage where
  topic : String
  value : EventEnvelope
deriving DecidableEq, Repr

/-- The message that delivers an event. -/
def OutboxRow.message (row : OutboxRow) : KafkaMessage := ⟨row.topic, row.payload⟩

/-- The rows of `outbox`. -/
abbrev OutboxTable := List QueuedRow

namespace OutboxTable

/-- The rows can be what `claim_batch` selects: pending rows, oldest first, and not more than
`limit` of them. Rows that another transaction has locked are skipped. -/
structure Claimable (table rows : OutboxTable) (limit : ℕ) : Prop where
  pending : ∀ row ∈ rows, row ∈ table ∧ row.status = .pending
  distinct : (rows.map (·.id)).Nodup
  ordered : rows.Pairwise fun a b => a.createdAt ≤ b.createdAt
  limited : rows.length ≤ limit

/-- Whether these are rows that a relay may claim is decidable. -/
instance (table rows : OutboxTable) (limit : ℕ) : Decidable (Claimable table rows limit) :=
  decidable_of_iff ((∀ row ∈ rows, row ∈ table ∧ row.status = .pending) ∧
      (rows.map (·.id)).Nodup ∧ (rows.Pairwise fun a b => a.createdAt ≤ b.createdAt) ∧
      rows.length ≤ limit)
    ⟨fun ⟨h, h', h'', h'''⟩ => ⟨h, h', h'', h'''⟩,
      fun h => ⟨h.pending, h.distinct, h.ordered, h.limited⟩⟩

/-- A claimed row. -/
def claimed (row : QueuedRow) : QueuedRow := { row with status := .publishing }

/-- The transaction of `claim_batch`, for the rows it selects. -/
def claim (table rows : OutboxTable) : OutboxTable :=
  table.map fun row => if row.id ∈ rows.map (·.id) then claimed row else row

/-- `db.merge(row)`: every column of the row with the same primary key is overwritten, and if there
is no such row, it is inserted. -/
def merge (table : OutboxTable) (row : QueuedRow) : OutboxTable :=
  if row.id ∈ table.map (·.id) then table.map fun r => if r.id = row.id then row else r
  else table ++ [row]

/-- The transaction of `confirm_batch`. -/
def confirm (table rows : OutboxTable) : OutboxTable := rows.foldl merge table

/-- `recover_stuck_rows` resets the row. -/
def isStuck (cutoff : Time) (row : QueuedRow) : Bool :=
  row.status = .publishing && row.createdAt < cutoff

/-- The transaction of `recover_stuck_rows`. -/
def recoverStuckRows (table : OutboxTable) (cutoff : Time) : OutboxTable :=
  table.map fun row => if isStuck cutoff row then { row with status := .pending } else row

/-- The first `DELETE` of `cleanup_published_rows` matches the row. A `published_at` that is null
matches nothing. -/
def isOldPublished (publishedCutoff : Time) (row : QueuedRow) : Bool :=
  row.status = .published && row.publishedAt.any (· < publishedCutoff)

/-- The second `DELETE` of `cleanup_published_rows` matches the row. -/
def isOldFailed (failedCutoff : Time) (row : QueuedRow) : Bool :=
  row.status = .failed && row.createdAt < failedCutoff

/-- The transaction of `cleanup_published_rows`. -/
def cleanupPublishedRows (table : OutboxTable) (publishedCutoff failedCutoff : Time) :
    OutboxTable :=
  (table.filter fun row => !isOldPublished publishedCutoff row).filter fun row =>
    !isOldFailed failedCutoff row

end OutboxTable

namespace OutboxRelay

/-- `BATCH_SIZE`. -/
def batchSize : ℕ := 100

/-- `MIN_SLEEP`, in seconds. -/
def minSleep : ℕ := 1

/-- `MAX_SLEEP`, in seconds. -/
def maxSleep : ℕ := 30

/-- `MAX_OUTBOX_RETRIES`. -/
def maxOutboxRetries : ℕ := 10

/-- What a relay awaits, or reads from outside. -/
inductive Op
  /-- `time.monotonic()`, in seconds. -/
  | monotonic
  /-- `datetime.now(timezone.utc)`. -/
  | now
  | sleep (seconds : ℕ)
  /-- The transactions. -/
  | claim
  | confirm (rows : List QueuedRow)
  | recoverStuckRows (cutoff : Time)
  | cleanupPublishedRows (publishedCutoff failedCutoff : Time)
  | sendAndWait (message : KafkaMessage)

/-- The value that an operation returns. -/
def Op.Out : Op → Type
  | monotonic => ℚ
  | now => Time
  | claim => List QueuedRow
  | _ => Unit

/-- The exceptions that a relay can meet. -/
inductive Exc
  | kafkaError
  /-- Any other exception; nothing catches it. -/
  | other
deriving DecidableEq, Repr

/-- A coroutine of the relay. -/
abbrev Program := Prog Op Op.Out Exc

/-- `time.monotonic()`. -/
def monotonic : Program ℚ := Prog.perform Op.monotonic

/-- `datetime.now(timezone.utc)`. -/
def now : Program Time := Prog.perform Op.now

/-- `asyncio.sleep`. -/
def sleep (seconds : ℕ) : Program Unit := Prog.perform (Op.sleep seconds)

/-- `kafka_producer.send_and_wait`. -/
def sendAndWait (message : KafkaMessage) : Program Unit := Prog.perform (Op.sendAndWait message)

/-- Claim pending rows. -/
def claimBatch : Program (List QueuedRow) := do
  let rows : List QueuedRow ← Prog.perform Op.claim
  pure (rows.map OutboxTable.claimed)

/-- Write the results of sending back. -/
def confirmBatch (rows : List QueuedRow) : Program Unit :=
  Prog.perform (Op.confirm rows)

/-- Return rows that are stuck for five minutes. -/
def recoverStuckRows : Program Unit := do
  let at_ ← now
  Prog.perform (Op.recoverStuckRows (at_ - minutes 5))

/-- `n` days in microseconds. -/
def days (n : ℤ) : ℤ := minutes (n * 24 * 60)

/-- Delete rows that were published seven days ago, and failed rows after thirty days. -/
def cleanupPublishedRows : Program Unit := do
  let at_ ← now
  let later ← now
  Prog.perform (Op.cleanupPublishedRows (at_ - days 7) (later - days 30))

/-- The row after its message could not be sent. -/
def sendFailed (row : QueuedRow) : QueuedRow :=
  let row := { row with retryCount := row.retryCount + 1 }
  if row.retryCount ≥ maxOutboxRetries then { row with status := .failed }
  else { row with status := .pending }

/-- Send the message of one row. -/
def publishRow (row : QueuedRow) : Program QueuedRow :=
  tryCatch
    (do
      sendAndWait row.message
      let publishedAt ← now
      pure { row with status := .published, publishedAt := some publishedAt })
    fun
      | .kafkaError => pure (sendFailed row)
      | e => throw e

/-- Send the messages of the claimed rows. -/
def publishRows : List QueuedRow → Program (List QueuedRow)
  | [] => pure []
  | row :: rows => do
      let row ← publishRow row
      let rows ← publishRows rows
      pure (row :: rows)

/-- Periodic maintenance: run the task if the last time is more than `interval` seconds ago. The
result is the time of the last run. -/
def whenDue (now last interval : ℚ) (task : Program Unit) : Program ℚ :=
  if now - last > interval then do
    task
    pure now
  else pure last

/-- The local variables of `relay_loop`. -/
structure LoopState where
  backoff : ℕ := minSleep
  lastRecovery : ℚ := 0
  lastCleanup : ℚ := 0

/-- `relay_loop`, for a number of iterations. -/
def relayLoop : ℕ → LoopState → Program Unit
  | 0, _ => pure ()
  | n + 1, s => do
      let now ← monotonic
      let lastRecovery ← whenDue now s.lastRecovery 300 recoverStuckRows
      let lastCleanup ← whenDue now s.lastCleanup 86400 cleanupPublishedRows
      let claimed ← claimBatch
      if claimed.isEmpty then
        let backoff := min (s.backoff * 2) maxSleep
        sleep backoff
        relayLoop n ⟨backoff, lastRecovery, lastCleanup⟩
      else
        let rows ← publishRows claimed
        -- the claimed copies are merged, whatever the table holds by now
        confirmBatch rows
        let publishedCount := rows.countP fun r => r.status = .published
        let backoff := if publishedCount = 0 then min (s.backoff * 2) maxSleep else minSleep
        sleep backoff
        relayLoop n ⟨backoff, lastRecovery, lastCleanup⟩

/-! ## The relays together -/

/-- What a relay has seen so far: nothing of it has an influence on what happens. -/
structure Session where
  /-- The rows it has claimed. -/
  claimed : List OutboxRow := []
  /-- The messages whose sending returned to it. -/
  acked : List KafkaMessage := []

/-- The table and Kafka, with a record of what happened to the rows. -/
structure Shared where
  table : OutboxTable := []
  /-- The messages that Kafka has acknowledged. -/
  acked : List KafkaMessage := []
  /-- The rows that services have committed. -/
  committed : List OutboxRow := []
  /-- The rows that the second `DELETE` of `cleanup_published_rows` has removed. -/
  dropped : List QueuedRow := []

/-- An operation can end with the result. Every operation can fail. -/
def Ends (s : Shared) : (o : Op) → Except Exc o.Out → Prop
  | .claim, .ok rows => s.table.Claimable rows batchSize
  | _, _ => True

/-- The session after an operation has ended. -/
def after : (o : Op) → Except Exc o.Out → Session → Session
  | .claim, .ok rows, σ => { σ with claimed := List.map QueuedRow.toOutboxRow rows ++ σ.claimed }
  | .sendAndWait message, .ok _, σ => { σ with acked := message :: σ.acked }
  | _, _, σ => σ

/-- What an operation that has ended does. Sending returns only after the acknowledgement. -/
def effect : (o : Op) → Except Exc o.Out → Shared → Shared
  | .claim, .ok rows, s => { s with table := s.table.claim rows }
  | .confirm rows, .ok _, s => { s with table := s.table.confirm rows }
  | .recoverStuckRows cutoff, .ok _, s => { s with table := s.table.recoverStuckRows cutoff }
  | .cleanupPublishedRows publishedCutoff failedCutoff, .ok _, s =>
      { s with
        table := s.table.cleanupPublishedRows publishedCutoff failedCutoff
        dropped := s.table.filter (OutboxTable.isOldFailed failedCutoff) ++ s.dropped }
  | .sendAndWait message, .ok _, s => { s with acked := message :: s.acked }
  | _, _, s => s

/-- A service commits an event. Its row has a new identifier and the defaults of the columns. -/
def Inserts (s s' : Shared) : Prop :=
  ∃ row createdAt, row.id ∉ s.committed.map (·.id) ∧
    s' = { s with
      table := s.table ++ [{ toOutboxRow := row, createdAt := createdAt }]
      committed := row :: s.committed }

end OutboxRelay

/-- Any number of relays over one table, while services commit events. -/
def relay : System OutboxRelay.Op OutboxRelay.Op.Out OutboxRelay.Exc Unit OutboxRelay.Shared
    OutboxRelay.Session where
  idle := {}
  enabled := fun _ o r w => OutboxRelay.Ends w.shared o r
  after := OutboxRelay.after
  effect := fun o r _ => OutboxRelay.effect o r
  env := OutboxRelay.Inserts
  start := fun p => ∃ n, p = OutboxRelay.relayLoop n {}

/-- What a schedule of the relays settles. -/
inductive RelayHint
  /-- The operation succeeds; a relay claims all pending rows, and all clocks stand still. -/
  | auto
  | fail (e : OutboxRelay.Exc)
  | insert (event : OutboxRow)

/-- The schedules of the relays. A relay is started for one iteration. -/
def relayPlayer : relay.Player RelayHint where
  spawn := fun _ => some ⟨OutboxRelay.relayLoop 1 {}, 1, rfl⟩
  call := fun hint _ o w =>
    match hint, o with
    | .auto, .monotonic => some ⟨.ok (0 : ℚ), trivial⟩
    | .auto, .now => some ⟨.ok (0 : ℤ), trivial⟩
    | .auto, .sleep _ => some ⟨.ok (), trivial⟩
    | .auto, .confirm _ => some ⟨.ok (), trivial⟩
    | .auto, .recoverStuckRows _ => some ⟨.ok (), trivial⟩
    | .auto, .cleanupPublishedRows _ _ => some ⟨.ok (), trivial⟩
    | .auto, .sendAndWait _ => some ⟨.ok (), trivial⟩
    | .auto, .claim =>
        let rows := (w.shared.table.filter fun row => row.status = .pending).take
          OutboxRelay.batchSize
        if h : w.shared.table.Claimable rows OutboxRelay.batchSize then some ⟨.ok rows, h⟩ else none
    | .fail e, .sendAndWait _ => some ⟨.error e, trivial⟩
    | _, _ => none
  env := fun hint s =>
    match hint with
    | .insert event =>
        if h : event.id ∈ s.committed.map (·.id) then none
        else some ⟨_, event, 0, h, rfl⟩
    | _ => none

end MiniWallet

import MiniWallet.Safety.Backfill

/-!
# Historical data

What the consumers make of the rows that the backfill inserts. The tables are those of a wallet that
published no events, and the messages are delivered in any order, as often as it takes.

* `Historical`: what Postgres guarantees about the tables.
* `Entity.activities`: the rows of the read model that an entity stands for.
* `Delivered`: which entities a consumer has processed, with the time of the event that came first.
* `delivered_activities`, `delivered_audits`: the tables of the consumers after any deliveries.
-/

namespace MiniWallet

open Numeric Process System Python

/-! ## Tables of a wallet without events -/

/-- What Postgres guarantees about the tables of a wallet that published no events. -/
structure Historical (db : Database) : Prop where
  keys : db.keys.Nodup
  foreignKeys : ∀ row ∈ db.rows, ∀ key ∈ row.foreignKeys, (db.accountById key.1).isSome
  checks : ∀ row ∈ db.rows, row.failedCheck? = none
  /-- Every value fits the type of its column. -/
  fits : ∀ row ∈ db.rows, (row.map Ticks.toDecimal).fits
  /-- The texts that the services fill from constants contain no null character either. -/
  status : ∀ a ∈ db.accounts, hasNull a.status = false
  failureCode : ∀ t ∈ db.transfers, ∀ code ∈ t.failureCode, hasNull code = false
  outbox : db.outbox = []

namespace Historical

variable {db : Database} (h : Historical db)

include h

/-- What Postgres has checked about a transfer. -/
theorem transfer {t : Transfer Ticks} (ht : t ∈ db.transfers) :
    t.fromAccountId ≠ t.toAccountId ∧ (db.accountById t.fromAccountId).isSome ∧
      (db.accountById t.toAccountId).isSome ∧ amountFits (Ticks.toDecimal t.amount) ∧
      hasNull t.idempotencyKey = false := by
  obtain ⟨row, hrow, hread⟩ := List.mem_filterMap.mp ht
  cases row with
  | transfer t' =>
      cases hread
      have hchecks := h.checks _ hrow
      have hfits := h.fits _ hrow
      simp only [Row.failedCheck?] at hchecks
      simp only [Row.map, Transfer.map, Row.fits, Bool.and_eq_true] at hfits
      refine ⟨fun heq => ?_, h.foreignKeys _ hrow (_, _) List.mem_cons_self,
        h.foreignKeys _ hrow (_, _) (List.mem_cons_of_mem _ List.mem_cons_self), hfits.1,
        hasNull_of_varchar hfits.2⟩
      rw [if_pos heq] at hchecks
      cases hchecks
  | _ => cases hread

/-- What Postgres has checked about a leg. -/
theorem leg {e : LedgerEntry Ticks} (he : e ∈ db.ledgerEntries) :
    (db.accountById e.accountId).isSome ∧ amountFits (Ticks.toDecimal e.amount) := by
  obtain ⟨row, hrow, hread⟩ := List.mem_filterMap.mp he
  cases row with
  | ledger e' =>
      cases hread
      have hfits := h.fits _ hrow
      simp only [Row.map, LedgerEntry.map, Row.fits, Bool.and_eq_true] at hfits
      exact ⟨h.foreignKeys _ hrow (_, _) List.mem_cons_self, hfits.1.1⟩
  | _ => cases hread

end Historical

/-- What the rows of a backfill rest on. -/
structure Backfillable (db : Database) : Prop where
  keys : db.keys.Nodup
  transfers : ∀ t ∈ db.transfers, t.status = .completed → t.fromAccountId ≠ t.toAccountId ∧
    (db.accountById t.fromAccountId).isSome ∧ (db.accountById t.toAccountId).isSome ∧
    amountFits (Ticks.toDecimal t.amount)
  legs : ∀ e ∈ db.ledgerEntries, (db.accountById e.accountId).isSome ∧
    amountFits (Ticks.toDecimal e.amount)

/-- The rows of a backfill rest on what Postgres guarantees. -/
theorem Historical.backfillable {db : Database} (h : Historical db) : Backfillable db where
  keys := h.keys
  transfers := by
    intro t ht _
    obtain ⟨hdifferent, hfrom, hto, hfits, -⟩ := h.transfer ht
    exact ⟨hdifferent, hfrom, hto, hfits⟩
  legs := fun e he => h.leg he

/-- What the read model holds of an amount that was stored and printed. -/
theorem ofText_money_toDecimal (n : Ticks) :
    Ticks.ofText (money (Ticks.toDecimal n)) = some n := by
  have halike : (Ticks.toDecimal n).RoundsAlike moneyPlaces := by
    simp [Decimal.RoundsAlike, Ticks.toDecimal, Decimal.ofScaled, Decimal.den, Nat.mod_one]
  rw [ofText_money_of_rounded halike, Ticks.ofDecimal_toDecimal]

/-- Different rows say different things. -/
theorem TransactionActivity.line_injective : Function.Injective TransactionActivity.line := by
  rintro ⟨id, account, direction, amount, currency, entryType, reference, occurredAt⟩
    ⟨id', account', direction', amount', currency', entryType', reference', occurredAt'⟩ h
  simp only [TransactionActivity.line, ActivityLine.mk.injEq, Option.some.injEq] at h
  obtain ⟨hid, haccount, rfl, rfl, rfl, rfl, hreference, rfl⟩ := h
  rw [UUID.str_injective hid, UUID.str_injective haccount,
    Option.map_injective UUID.str_injective hreference]

namespace BackfillEvents

variable {uuid5 : String → UUID} {force : Bool} {P All : Entity → Prop}

namespace Entity

/-! ## What the consumers make of an event -/

variable (uuid5)

/-- The rows of the read model that an entity stands for. -/
def activities (x : Entity) (occurredAt : Time) : List (TransactionActivity Ticks) :=
  match x with
  | account _ => []
  | transfer t =>
      match t.status with
      | .completed =>
          [⟨uuid5 x.name, t.fromAccountId, .debit, t.amount, "USD", "transfer", some t.id,
            occurredAt⟩,
            ⟨uuid5 x.name, t.toAccountId, .credit, t.amount, "USD", "transfer", some t.id,
              occurredAt⟩]
      | .failed => []
  | seed e _ => [⟨uuid5 x.name, e.accountId, .credit, e.amount, "USD", "seed", none, occurredAt⟩]

/-- The resource of the event of an entity. -/
def resourceId : Entity → UUID
  | account a => a.id
  | transfer t => t.id
  | seed e _ => e.accountId

variable {uuid5}

/-- The rows of an entity carry its identifier. -/
theorem eventId_of_mem {x : Entity} {t : Time} {r : TransactionActivity Ticks}
    (h : r ∈ x.activities uuid5 t) : r.eventId = uuid5 x.name := by
  unfold activities at h
  split at h
  · cases h
  · split at h
    · simp only [List.mem_cons, List.not_mem_nil, or_false] at h
      rcases h with rfl | rfl <;> rfl
    · cases h
  · obtain rfl := List.mem_singleton.mp h
    rfl

/-- The rows of an entity carry the time of its event. -/
theorem occurredAt_of_mem {x : Entity} {t : Time} {r : TransactionActivity Ticks}
    (h : r ∈ x.activities uuid5 t) : r.occurredAt = t := by
  unfold activities at h
  split at h
  · cases h
  · split at h
    · simp only [List.mem_cons, List.not_mem_nil, or_false] at h
      rcases h with rfl | rfl <;> rfl
    · cases h
  · obtain rfl := List.mem_singleton.mp h
    rfl

/-- The time of the event does not matter for the keys of its rows. -/
theorem map_key_activities (x : Entity) (t t' : Time) :
    (x.activities uuid5 t).map (·.key) = (x.activities uuid5 t').map (·.key) := by
  unfold activities
  split
  · rfl
  · split <;> rfl
  · rfl

/-- The accounts among the entities are those of users. -/
theorem account_mem {db : Database} {a : Account} :
    Entity.account a ∈ db.entities ↔ a ∈ db.userAccounts := by
  simp [Database.entities]

/-- The transfers among the entities are those in the table. -/
theorem transfer_mem {db : Database} {t : Transfer Ticks} :
    Entity.transfer t ∈ db.entities ↔ t ∈ db.transfers := by
  simp [Database.entities]

/-- The seeds among the entities are the credit legs of seeds, with the owners of their accounts. -/
theorem seed_mem {db : Database} {e : LedgerEntry Ticks} {owner : Option UUID} :
    Entity.seed e owner ∈ db.entities ↔ e ∈ db.seeds ∧ db.owner e.accountId = owner := by
  simp [Database.entities]

/-- The payload of a completed transfer. -/
theorem payload_completed {t : Transfer Ticks} (h : t.status = .completed) :
    (transfer t).payload = .transferCompleted ⟨t.id.str, t.fromAccountId.str, t.toAccountId.str,
      money (Ticks.toDecimal t.amount), "USD", "transfer", t.idempotencyKey⟩ := by
  simp only [payload, h]

/-- The payload of a failed transfer. -/
theorem payload_failed {t : Transfer Ticks} (h : t.status = .failed) :
    (transfer t).payload = .transferFailed ⟨t.id.str, t.fromAccountId.str, t.toAccountId.str,
      money (Ticks.toDecimal t.amount), "USD", orUnknown t.failureCode, "transfer",
      t.idempotencyKey⟩ := by
  simp only [payload, h]

/-- The event of an entity is parsed. -/
theorem parsed (uuid5 : String → UUID) (x : Entity) (t : Time) :
    parseEvent (x.event uuid5 t) = some (some (x.event uuid5 t).payload) := by
  rw [parseEvent, event, parsePayload_modelDump]

variable {db : Database}

/-- The activity consumer reads the event of an entity as the rows that the entity stands for. -/
theorem readable (uuid5 : String → UUID) (hdb : Backfillable db) {x : Entity} (hx : x ∈ db.entities)
    (t : Time) :
    ∃ rows, Readable db (x.event uuid5 t) rows ∧ rows.map (·.stored) = x.activities uuid5 t := by
  -- it is enough that the lines agree, as the line of a row determines it
  suffices hread : (∃ rows, Readable db (x.event uuid5 t) rows) ∧
      (x.event uuid5 t).lines = (x.activities uuid5 t).map (·.line) by
    obtain ⟨⟨rows, hrows⟩, hlines⟩ := hread
    refine ⟨rows, hrows, TransactionActivity.line_injective.list_map ?_⟩
    rw [List.map_map, ← hlines, ← hrows.lines]
    rfl
  have hparsed := x.parsed uuid5 t
  cases x with
  -- an account has no row
  | account a => exact ⟨readable_nothing hparsed rfl rfl, rfl⟩
  | transfer tr =>
      cases hstatus : tr.status with
      | completed =>
          -- the two legs of a completed transfer
          obtain ⟨hdifferent, hfrom, hto, hfits⟩ :=
            hdb.transfers tr (transfer_mem.mp hx) hstatus
          have hpayload : ((Entity.transfer tr).event uuid5 t).payload = _ :=
            payload_completed hstatus
          refine ⟨readable_pair (some tr.id) hparsed ?_ ?_ rfl (denotes_money _)
            (amountFits_money hfits) (by decide : varchar 3 "USD")
            (by decide : varchar 30 "transfer") hdifferent hfrom
            hto, ?_⟩
          · rw [hpayload]
            rfl
          · rw [EventEnvelope.lines, hpayload]
            rfl
          · rw [EventEnvelope.lines, hpayload]
            simp only [activities, hstatus, ofText_money_toDecimal]
            rfl
      -- a failed transfer has no row
      | failed =>
          have hpayload : ((Entity.transfer tr).event uuid5 t).payload = _ := payload_failed hstatus
          have hlines : ((Entity.transfer tr).event uuid5 t).lines = [] := by
            rw [EventEnvelope.lines, hpayload]
          refine ⟨readable_nothing hparsed ?_ hlines, ?_⟩
          · rw [hpayload]
            rfl
          · rw [hlines, activities]
            simp only [hstatus, List.map_nil]
  -- the credit of a seed
  | seed e owner =>
      obtain ⟨haccount, hfits⟩ := hdb.legs e (List.mem_of_mem_filter (seed_mem.mp hx).1)
      refine ⟨readable_single .credit none hparsed rfl rfl rfl (denotes_money _)
        (amountFits_money hfits) (by decide : varchar 3 "USD")
          (by decide : varchar 30 "seed") haccount, ?_⟩
      simp only [EventEnvelope.lines, event, payload, activities, ofText_money_toDecimal]
      rfl

variable (hdb : Historical db)

include hdb

/-- The texts of the event of an entity contain no null character. -/
theorem nullFree {x : Entity} (hx : x ∈ db.entities) :
    ∀ field ∈ x.payload.modelDump, hasNull field.2 = false := by
  -- the constants that stand in for an absent value contain none either
  have howner (owner : Option UUID) : hasNull (strOrNone owner) = false := by
    cases owner with
    | none => decide +kernel
    | some u => exact hasNull_uuid u
  have hcode (code : Option String) (hcode : ∀ text ∈ code, hasNull text = false) :
      hasNull (orUnknown code) = false := by
    have hunknown : hasNull "UNKNOWN" = false := by decide +kernel
    unfold orUnknown
    cases hfilter : code.filter (· ≠ "") with
    | none => exact hunknown
    | some text => exact hcode text (Option.eq_some_of_filter_eq_some hfilter)
  cases x with
  | account a =>
      have hstatus := hdb.status a (List.mem_of_mem_filter (account_mem.mp hx))
      simp [payload, EventPayload.modelDump, hasNull_uuid, howner, hstatus]
  -- the failure code of a failed transfer is a text of the database
  | transfer tr =>
      obtain ⟨-, -, -, -, hkey⟩ := hdb.transfer (transfer_mem.mp hx)
      have hfailure := hcode _ (hdb.failureCode tr (transfer_mem.mp hx))
      cases hstatus : tr.status with
      | completed =>
          rw [payload_completed hstatus]
          simp [EventPayload.modelDump, hasNull_uuid, hasNull_money, hasNull_constants, hkey]
      | failed =>
          rw [payload_failed hstatus]
          simp [EventPayload.modelDump, hasNull_uuid, hasNull_money, hasNull_constants, hkey,
            hfailure]
  | seed e owner =>
      simp [payload, EventPayload.modelDump, hasNull_uuid, hasNull_money, hasNull_constants, howner]

/-- The audit consumer can keep the event of an entity. -/
theorem auditable {x : Entity} (hx : x ∈ db.entities) {t : Time} (ht : InDatetime t) :
    (x.event uuid5 t).Auditable where
  eventType := rfl
  eventId := ⟨_, rfl⟩
  actorId := ⟨none, rfl⟩
  version := (by decide +kernel : hasNull "1" = false)
  occurredAt := ht
  payload := nullFree hdb hx
  -- each payload has the identifier that the consumer looks for
  resource := by
    dsimp only [event]
    cases x with
    | transfer tr =>
        cases hstatus : tr.status with
        | completed =>
            rw [payload_completed hstatus]
            simp [EventPayload.modelDump, List.lookup_cons]
        | failed =>
            rw [payload_failed hstatus]
            simp [EventPayload.modelDump, List.lookup_cons]
    | _ => simp [payload, EventPayload.modelDump, List.lookup_cons]

end Entity

/-! ## Deliveries -/

section Deliveries

variable {T ε : Type}

/-- A consumer decodes a message and processes it. -/
def deliver (limit : ℕ) (process : T → JsonValue → Except ε T) (table : T) (row : OutboxRow) :
    Option T :=
  match loads limit (some row.payload.message) with
  | .ok event => (process table event).toOption
  | .error _ => none

/-- The messages are delivered one after another. -/
def deliverAll (limit : ℕ) (process : T → JsonValue → Except ε T) (table : T)
    (rows : List OutboxRow) : Option T :=
  rows.foldlM (deliver limit process) table

/-- `D` are the entities that the rows are about, each with the time of one of its rows. -/
structure Delivered (uuid5 : String → UUID) (rows : List OutboxRow) (D : List (Entity × Time)) :
    Prop where
  distinct : (D.map (·.1)).Nodup
  sound : ∀ p ∈ D, ∃ id, p.1.row uuid5 id p.2 ∈ rows
  complete : ∀ row ∈ rows, ∃ p ∈ D, row.payload.eventId = (uuid5 p.1.name).str

/-- The names of the entities in `P` are told apart by their identifiers. -/
def Distinguished (uuid5 : String → UUID) (P : Entity → Prop) : Prop :=
  ∀ x y, P x → P y → uuid5 x.name = uuid5 y.name → x = y

/-- One more row is delivered. -/
theorem Delivered.snoc {rows : List OutboxRow} {D : List (Entity × Time)}
    (h : Delivered uuid5 rows D) (x : Entity) (id : UUID) (t : Time) :
    Delivered uuid5 (rows ++ [x.row uuid5 id t])
      (if x ∈ D.map (·.1) then D else (x, t) :: D) := by
  have hsound : ∀ p ∈ D, ∃ id', p.1.row uuid5 id' p.2 ∈ rows ++ [x.row uuid5 id t] := fun p hp =>
    (h.sound p hp).imp fun _ hrow => List.mem_append_left _ hrow
  by_cases hx : x ∈ D.map (·.1)
  · rw [if_pos hx]
    obtain ⟨p, hp, rfl⟩ := List.mem_map.mp hx
    exact ⟨h.distinct, hsound,
      List.forall_mem_append.mpr ⟨h.complete, List.forall_mem_singleton.mpr ⟨p, hp, rfl⟩⟩⟩
  · rw [if_neg hx]
    refine ⟨List.nodup_cons.mpr ⟨hx, h.distinct⟩, List.forall_mem_cons.mpr ⟨⟨id, by simp⟩, hsound⟩,
      List.forall_mem_append.mpr ⟨fun row hrow => ?_,
        List.forall_mem_singleton.mpr ⟨(x, t), List.mem_cons_self, rfl⟩⟩⟩
    obtain ⟨p, hp, heq⟩ := h.complete row hrow
    exact ⟨p, List.mem_cons_of_mem _ hp, heq⟩

/-- A consumer that knows of every event whether it has processed it, and then ignores it, can be
given any messages: what its table holds is determined by the entities it has processed. -/
theorem exists_deliverAll {limit : ℕ} {process : T → JsonValue → Except ε T}
    {Holds : List (Entity × Time) → T → Prop} {table : T} (hinit : Holds [] table)
    (hstep : ∀ D table x id t, P x → InDatetime t → Holds D table →
      ∃ table', deliver limit process table (x.row uuid5 id t) = some table' ∧
        Holds (if x ∈ D.map (·.1) then D else (x, t) :: D) table')
    {rows : List OutboxRow} (hrows : ∀ row ∈ rows, Reported uuid5 P row) :
    ∃ D table', deliverAll limit process table rows = some table' ∧ Delivered uuid5 rows D ∧
      Holds D table' := by
  induction rows using List.reverseRecOn with
  | nil => exact ⟨[], table, rfl, ⟨.nil, fun p hp => (nomatch hp), fun r hr => (nomatch hr)⟩, hinit⟩
  -- the last message is one for an entity of the table, so that the step applies to it
  | append_singleton rows row ih =>
      obtain ⟨hold, hrow⟩ := List.forall_mem_append.mp hrows
      obtain ⟨x, hx, id, t, ht, rfl⟩ := hrow row (List.mem_singleton_self row)
      obtain ⟨D, table', hdeliver, hD, hholds⟩ := ih hold
      obtain ⟨table'', hlast, hholds'⟩ := hstep D table' x id t hx ht hholds
      refine ⟨_, table'', ?_, hD.snoc x id t, hholds'⟩
      rw [deliverAll, List.foldlM_append]
      dsimp only [deliverAll] at hdeliver
      rw [hdeliver]
      simp [hlast]

variable {db : Database} {limit : ℕ}

/-- The consumer's table holds the rows of the entities in `D`. -/
structure HoldsActivities (uuid5 : String → UUID) (P : Entity → Prop) (D : List (Entity × Time))
    (table : ActivityConsumer.Table) : Prop where
  known : ∀ p ∈ D, P p.1
  contents : table.Perm (D.flatMap fun p => p.1.activities uuid5 p.2)

/-- The consumer's table holds a row for each entity in `D`, which keeps its event. -/
structure HoldsAudits (uuid5 : String → UUID) (P : Entity → Prop) (D : List (Entity × Time))
    (table : AuditConsumer.Table) : Prop where
  known : ∀ p ∈ D, P p.1
  contents : List.Forall₂ (fun r p => AuditEvent.Records r (p.1.event uuid5 p.2)) table D

/-- The identifiers in the table. -/
theorem HoldsAudits.eventIds {D : List (Entity × Time)} {table : AuditConsumer.Table}
    (h : HoldsAudits uuid5 P D table) :
    table.map (·.eventId) = D.map fun p => uuid5 p.1.name := by
  obtain ⟨-, hcontents⟩ := h
  induction hcontents with
  | nil => rfl
  | cons hrow _ ih => rw [List.map_cons, List.map_cons, ih, UUID.str_injective hrow.eventId.symm]

/-- A row of an entity is in the table exactly if the entity is in `D`. -/
theorem HoldsActivities.key_mem_iff {D : List (Entity × Time)} {table : ActivityConsumer.Table}
    (h : HoldsActivities uuid5 P D table) (huuid5 : Distinguished uuid5 P) {x : Entity} (hx : P x)
    {t : Time} {r : TransactionActivity Ticks} (hr : r ∈ x.activities uuid5 t) :
    r.key ∈ table.map (·.key) ↔ x ∈ D.map (·.1) := by
  constructor
  · intro hkey
    obtain ⟨r', hr', hsame⟩ := List.mem_map.mp hkey
    obtain ⟨p, hp, hmem⟩ := List.mem_flatMap.mp (h.contents.mem_iff.mp hr')
    -- the row in the table belongs to an entity with the same identifier
    have hid : uuid5 p.1.name = uuid5 x.name := by
      rw [← Entity.eventId_of_mem hmem, ← Entity.eventId_of_mem hr]
      exact congrArg Prod.fst hsame
    exact huuid5 _ _ (h.known p hp) hx hid ▸ List.mem_map_of_mem hp
  · intro hmem
    obtain ⟨p, hp, rfl⟩ := List.mem_map.mp hmem
    have hkey : r.key ∈ (p.1.activities uuid5 p.2).map (·.key) :=
      p.1.map_key_activities t p.2 ▸ List.mem_map_of_mem hr
    obtain ⟨r', hr', hsame⟩ := List.mem_map.mp hkey
    exact List.mem_map.mpr ⟨r', h.contents.mem_iff.mpr (List.mem_flatMap.mpr ⟨p, hp, hr'⟩), hsame⟩

section Historical

variable (hdb : Historical db) (hlimit : 2 ≤ limit)
  (huuid5 : Distinguished uuid5 (· ∈ db.entities))

include hdb hlimit huuid5

/-- The activity consumer is given the event of an entity. -/
theorem HoldsActivities.deliver {D : List (Entity × Time)} {table : ActivityConsumer.Table}
    (h : HoldsActivities uuid5 (· ∈ db.entities) D table) {x : Entity} (hx : x ∈ db.entities)
    (id : UUID) {t : Time} (ht : InDatetime t) :
    ∃ table', BackfillEvents.deliver limit (ActivityConsumer.processMessage db) table
        (x.row uuid5 id t) = some table' ∧
      HoldsActivities uuid5 (· ∈ db.entities)
        (if x ∈ D.map (·.1) then D else (x, t) :: D) table' := by
  obtain ⟨event, hloads, hdecodes⟩ := (x.event uuid5 t).decoded_message hlimit
  obtain ⟨rows, hread, hrows⟩ := Entity.readable uuid5 hdb.backfillable hx t
  -- the delivery is a call of the consumer on the event that was sent
  have hdeliver : BackfillEvents.deliver limit (ActivityConsumer.processMessage db) table
      (x.row uuid5 id t) = (ActivityConsumer.process db table (x.event uuid5 t)).toOption := by
    dsimp only [BackfillEvents.deliver, Entity.row]
    rw [hloads]
    dsimp only
    rw [ActivityConsumer.processMessage_eq hdecodes rfl ht]
  -- the keys of the rows are known exactly if the entity has been delivered
  have hkey : ∀ r ∈ rows, r.key ∈ table.map (·.key) ↔ x ∈ D.map (·.1) := by
    intro r hr
    have hmem : r.stored ∈ x.activities uuid5 t := hrows ▸ List.mem_map_of_mem hr
    exact h.key_mem_iff huuid5 hx hmem
  by_cases hknown : x ∈ D.map (·.1)
  · have hprocess := ActivityConsumer.process_known hread fun r hr => (hkey r hr).mpr hknown
    rw [if_pos hknown]
    exact ⟨table, by rw [hdeliver, hprocess]; rfl, h⟩
  · -- the rows are new, and are added for the entity
    have hprocess :=
      ActivityConsumer.process_new hread fun r hr hmem => hknown ((hkey r hr).mp hmem)
    rw [if_neg hknown]
    refine ⟨_, by rw [hdeliver, hprocess]; rfl, List.forall_mem_cons.mpr ⟨hx, h.known⟩, ?_⟩
    rw [hrows, List.flatMap_cons]
    exact (List.reverse_perm _).append h.contents

/-- The audit consumer is given the event of an entity. -/
theorem HoldsAudits.deliver {D : List (Entity × Time)} {table : AuditConsumer.Table}
    (h : HoldsAudits uuid5 (· ∈ db.entities) D table) {x : Entity} (hx : x ∈ db.entities)
    (id : UUID) {t : Time} (ht : InDatetime t) :
    ∃ table', BackfillEvents.deliver limit AuditConsumer.process table (x.row uuid5 id t) =
        some table' ∧
      HoldsAudits uuid5 (· ∈ db.entities) (if x ∈ D.map (·.1) then D else (x, t) :: D) table' := by
  obtain ⟨event, hloads, hdecodes⟩ := (x.event uuid5 t).decoded_message hlimit
  obtain ⟨row, hrow, hprocess⟩ :=
    AuditConsumer.process_auditable (Entity.auditable hdb hx ht) hdecodes
  -- a row is inserted unless its identifier is there
  have hdeliver : BackfillEvents.deliver limit AuditConsumer.process table (x.row uuid5 id t) =
      some (if row.eventId ∈ table.map (·.eventId) then table else row :: table) := by
    dsimp only [BackfillEvents.deliver, Entity.row]
    rw [hloads]
    dsimp only
    rw [hprocess]
    rfl
  have hid : row.eventId = uuid5 x.name := UUID.str_injective hrow.eventId.symm
  -- identifiers stand for entities one to one
  have hkey : row.eventId ∈ table.map (·.eventId) ↔ x ∈ D.map (·.1) := by
    rw [h.eventIds, hid]
    exact ⟨fun hmem => by
      obtain ⟨p, hp, hsame⟩ := List.mem_map.mp hmem
      exact huuid5 _ _ (h.known p hp) hx hsame ▸ List.mem_map_of_mem hp,
      fun hmem => by
        obtain ⟨p, hp, rfl⟩ := List.mem_map.mp hmem
        exact List.mem_map.mpr ⟨p, hp, rfl⟩⟩
  by_cases hknown : x ∈ D.map (·.1)
  · rw [if_pos (hkey.mpr hknown)] at hdeliver
    rw [if_pos hknown]
    exact ⟨table, hdeliver, h⟩
  · rw [if_neg fun hmem => hknown (hkey.mp hmem)] at hdeliver
    rw [if_neg hknown]
    exact ⟨_, hdeliver, List.forall_mem_cons.mpr ⟨hx, h.known⟩, .cons hrow h.contents⟩

/-- The activity consumer's table after any deliveries of rows of the database's entities. -/
theorem delivered_activities {rows : List OutboxRow}
    (hrows : ∀ row ∈ rows, Reported uuid5 (· ∈ db.entities) row) :
    ∃ D table, deliverAll limit (ActivityConsumer.processMessage db) [] rows = some table ∧
      Delivered uuid5 rows D ∧ HoldsActivities uuid5 (· ∈ db.entities) D table :=
  exists_deliverAll ⟨fun _ hp => (nomatch hp), .refl _⟩
    (fun _ _ _ id _ hx ht h => h.deliver hdb hlimit huuid5 hx id ht) hrows

/-- The audit consumer's table after any deliveries of rows of the database's entities. -/
theorem delivered_audits {rows : List OutboxRow}
    (hrows : ∀ row ∈ rows, Reported uuid5 (· ∈ db.entities) row) :
    ∃ D table, deliverAll limit AuditConsumer.process [] rows = some table ∧
      Delivered uuid5 rows D ∧ HoldsAudits uuid5 (· ∈ db.entities) D table :=
  exists_deliverAll ⟨fun _ hp => (nomatch hp), .nil⟩
    (fun _ _ _ id _ hx ht h => h.deliver hdb hlimit huuid5 hx id ht) hrows

end Historical

/-- What is delivered of all rows about the entities of a database are its entities. -/
theorem Delivered.perm_entities {rows : List OutboxRow} {D : List (Entity × Time)}
    (h : Delivered uuid5 rows D) (huuid5 : Distinguished uuid5 (· ∈ db.entities))
    (hnodup : db.entities.Nodup) (hknown : ∀ p ∈ D, p.1 ∈ db.entities)
    (hall : ∀ x ∈ db.entities, Covered uuid5 rows x) : (D.map (·.1)).Perm db.entities := by
  refine (List.perm_ext_iff_of_nodup h.distinct hnodup).mpr fun x => ⟨fun hx => ?_, fun hx => ?_⟩
  · obtain ⟨p, hp, rfl⟩ := List.mem_map.mp hx
    exact hknown p hp
  · obtain ⟨id, t, hrow⟩ := hall x hx
    obtain ⟨p, hp, hid⟩ := h.complete _ hrow
    exact huuid5 x p.1 hx (hknown p hp) (UUID.str_injective hid) ▸ List.mem_map_of_mem hp

end Deliveries

end BackfillEvents

end MiniWallet

import MiniWallet.Safety.Historical

/-!
# The backfill is exact

Any number of forced runs, which may crash at any point, and one run that completes; then the
messages of all rows are delivered to the consumers, in any order and any number of times.

* `Database.movements`: the rows of the read model that the tables stand for.
* `distinguished`: the names of the entities are different, and so are their identifiers.
* `backfill_exact`: what the tables of the consumers hold in the end.
-/

namespace MiniWallet

open Process System Python

/-- The row without the time of its event. -/
def TransactionActivity.undated (r : TransactionActivity Ticks) : TransactionActivity Ticks :=
  { r with occurredAt := 0 }

/-- What a row of the audit trail is about: the identifier and the type of the event, and its actor
and resource. -/
def AuditEvent.subject (r : AuditEvent) : UUID × String × Option UUID × Option UUID :=
  (r.eventId, r.eventType, r.actorId, r.resourceId)

section Expected

open BackfillEvents

variable (uuid5 : String → UUID)

/-- The legs of a transfer, as rows of the read model without a time. -/
def Transfer.activities (t : Transfer Ticks) : List (TransactionActivity Ticks) :=
  let eventId := uuid5 ("transfer.completed:" ++ t.id.str)
  [⟨eventId, t.fromAccountId, .debit, t.amount, "USD", "transfer", some t.id, 0⟩,
    ⟨eventId, t.toAccountId, .credit, t.amount, "USD", "transfer", some t.id, 0⟩]

/-- The credit leg of a seed, as a row of the read model without a time. -/
def LedgerEntry.activity (e : LedgerEntry Ticks) : TransactionActivity Ticks :=
  ⟨uuid5 ("seed.completed:" ++ e.id.str), e.accountId, .credit, e.amount, "USD", "seed", none, 0⟩

/-- A debit and a credit for each completed transfer, and a credit for each seed. -/
def Database.movements (db : Database) : List (TransactionActivity Ticks) :=
  (db.transfers.filter (·.status = .completed)).flatMap (Transfer.activities uuid5) ++
    db.seeds.map (LedgerEntry.activity uuid5)

/-- What the audit trail says about an entity. -/
def BackfillEvents.Entity.subject (x : Entity) : UUID × String × Option UUID × Option UUID :=
  (uuid5 x.name, x.payload.eventType, none, some x.resourceId)

end Expected

namespace BackfillEvents

variable {uuid5 : String → UUID} {force : Bool} {db : Database}

/-! ## Names -/

/-- A name tells the type of the event and the identifier of the entity. -/
theorem Entity.of_name {x y : Entity} (h : x.name = y.name) :
    x.payload.eventType = y.payload.eventType ∧ x.id = y.id := by
  have hchars := congrArg String.toList h
  simp only [Entity.name, String.toList_append] at hchars
  have hlen : x.id.str.toList.length = y.id.str.toList.length := by
    rw [String.length_toList, String.length_toList, length_uuid, length_uuid]
  obtain ⟨htype, hid⟩ := List.append_inj' hchars hlen
  refine ⟨?_, UUID.str_injective (String.toList_injective hid)⟩
  exact String.toList_injective (List.append_cancel_right htype)

/-- The type of the event of an entity tells what kind of entity it is. -/
theorem Entity.eventType_eq (x : Entity) :
    x.payload.eventType =
      match x with
      | account _ => "account.opened"
      | transfer t => if t.status = .completed then "transfer.completed" else "transfer.failed"
      | seed _ _ => "seed.completed" := by
  cases x with
  | transfer t =>
      cases hstatus : t.status with
      | completed => simp only [payload_completed hstatus, EventPayload.eventType, hstatus, if_true]
      | failed => simp [payload_failed hstatus, EventPayload.eventType, hstatus]
  | _ => rfl

section Tables

variable (hdb : Backfillable db)

include hdb

/-- Accounts have distinct identifiers. -/
theorem nodup_accounts : (db.accounts.map (·.id)).Nodup := by
  refine nodup_column (.pkey .accounts) (fun r a hr => ?_) hdb.keys
  cases r <;> cases hr
  simp [Row.keys]

/-- Transfers have distinct identifiers. -/
theorem nodup_transfers : (db.transfers.map (·.id)).Nodup := by
  refine nodup_column (.pkey .transfers) (fun r t hr => ?_) hdb.keys
  cases r <;> cases hr
  simp [Row.keys]

/-- Legs have distinct identifiers. -/
theorem nodup_ledgerEntries : (db.ledgerEntries.map (·.id)).Nodup := by
  refine nodup_column (.pkey .ledgerEntries) (fun r e hr => ?_) hdb.keys
  cases r <;> cases hr
  simp [Row.keys]

/-- Entities of historical tables with the same name are equal. -/
theorem Entity.eq_of_name {x y : Entity} (hx : x ∈ db.entities) (hy : y ∈ db.entities)
    (h : x.name = y.name) : x = y := by
  -- the name gives the event type and the identifier
  obtain ⟨htype, hid⟩ := Entity.of_name h
  match x, y with
  | account a, account b =>
      have ha := List.mem_of_mem_filter (account_mem.mp hx)
      have hb := List.mem_of_mem_filter (account_mem.mp hy)
      rw [List.inj_on_of_nodup_map (nodup_accounts hdb) ha hb hid]
  | transfer t, transfer u =>
      rw [List.inj_on_of_nodup_map (nodup_transfers hdb) (transfer_mem.mp hx)
        (transfer_mem.mp hy) hid]
  | seed e owner, seed f owner' =>
      obtain ⟨he, rfl⟩ := seed_mem.mp hx
      obtain ⟨hf, rfl⟩ := seed_mem.mp hy
      rw [List.inj_on_of_nodup_map (nodup_ledgerEntries hdb) (List.mem_of_mem_filter he)
        (List.mem_of_mem_filter hf) hid]
  -- entities of different kinds have events of different types
  | account _, seed _ _ | seed _ _, account _ =>
      rw [eventType_eq, eventType_eq] at htype
      simp at htype
  | account _, transfer t | seed _ _, transfer t | transfer t, account _ | transfer t, seed _ _ =>
      rw [eventType_eq, eventType_eq] at htype
      cases hstatus : t.status <;> simp [hstatus] at htype

/-- The entities of historical tables are different. -/
theorem nodup_entities : db.entities.Nodup := by
  have haccounts : db.userAccounts.Nodup := (nodup_accounts hdb).of_map.filter _
  have htransfers : db.transfers.Nodup := (nodup_transfers hdb).of_map
  have hseeds : db.seeds.Nodup := (nodup_ledgerEntries hdb).of_map.filter _
  unfold Database.entities
  refine List.Nodup.append (List.Nodup.append (haccounts.map ?_) (htransfers.map ?_) ?_)
    (hseeds.map ?_) ?_
  · exact fun _ _ h => Entity.account.inj h
  · exact fun _ _ h => Entity.transfer.inj h
  · simp [List.disjoint_left]
  · exact fun _ _ h => (Entity.seed.inj h).1
  · rw [List.disjoint_left]
    simp only [List.mem_append, List.mem_map]
    rintro _ (⟨a, -, rfl⟩ | ⟨t, -, rfl⟩) ⟨e, -, h⟩ <;> cases h

/-- If the identifiers tell the names apart, they tell the entities apart. -/
theorem distinguished (huuid5 : ∀ x ∈ db.entities, ∀ y ∈ db.entities,
    uuid5 x.name = uuid5 y.name → x.name = y.name) : Distinguished uuid5 (· ∈ db.entities) :=
  fun x y hx hy h => Entity.eq_of_name hdb hx hy (huuid5 x hx y hy h)

end Tables

/-! ## What the tables hold -/

/-- The rows that the entities of a database stand for. -/
theorem flatMap_activities :
    db.entities.flatMap (fun x => x.activities uuid5 0) = db.movements uuid5 := by
  -- accounts have no rows in the read model
  have haccounts : (db.userAccounts.map Entity.account).flatMap (fun x => x.activities uuid5 0) =
      [] := by
    simp [List.flatMap_map, Entity.activities]
  have htransfers : (db.transfers.map Entity.transfer).flatMap (fun x => x.activities uuid5 0) =
      (db.transfers.filter (·.status = .completed)).flatMap (Transfer.activities uuid5) := by
    -- failed transfers have none either
    induction db.transfers with
    | nil => rfl
    | cons t ts ih =>
        rw [List.map_cons, List.flatMap_cons, ih]
        cases hstatus : t.status with
        | completed =>
            rw [List.filter_cons_of_pos (by simp [hstatus]), List.flatMap_cons]
            simp only [Entity.activities, hstatus, Entity.name, Entity.payload_completed hstatus,
              Transfer.activities]
            rfl
        | failed =>
            rw [List.filter_cons_of_neg (by simp [hstatus])]
            simp only [Entity.activities, hstatus, List.nil_append]
  have hseeds : (db.seeds.map fun e => Entity.seed e (db.owner e.accountId)).flatMap
      (fun x => x.activities uuid5 0) = db.seeds.map (LedgerEntry.activity uuid5) := by
    rw [List.flatMap_map, List.map_eq_flatMap]
    rfl
  rw [Database.entities, List.flatMap_append, List.flatMap_append, haccounts, htransfers, hseeds,
    List.nil_append, Database.movements]

/-- The times of the events are the only difference between deliveries. -/
theorem map_undated_activities (x : Entity) (t : Time) :
    (x.activities uuid5 t).map TransactionActivity.undated = x.activities uuid5 0 := by
  unfold Entity.activities
  split
  · rfl
  · split <;> rfl
  · rfl

/-- The event of an entity is on a topic of the audit consumer. -/
theorem Entity.topic_mem (x : Entity) : x.payload.topic ∈ AuditConsumer.topics := by
  cases x with
  | transfer t =>
      cases hstatus : t.status with
      | completed =>
          rw [payload_completed hstatus]
          exact List.mem_cons_self
      | failed =>
          rw [payload_failed hstatus]
          exact List.mem_cons_self
  | _ => exact List.mem_cons_of_mem _ List.mem_cons_self

/-- The payload of an entity names its resource. -/
theorem Entity.resource_eq (x : Entity) : x.payload.resource = some x.resourceId.str := by
  cases x with
  | transfer t =>
      cases hstatus : t.status with
      | completed =>
          rw [payload_completed hstatus]
          rfl
      | failed =>
          rw [payload_failed hstatus]
          rfl
  | _ => rfl

/-- What the consumers' rows say about a list of entities. -/
theorem HoldsAudits.subjects {P : Entity → Prop} {D : List (Entity × Time)}
    {table : AuditConsumer.Table} (h : HoldsAudits uuid5 P D table) :
    table.map (·.subject) = D.map fun p => p.1.subject uuid5 := by
  obtain ⟨-, hcontents⟩ := h
  induction hcontents with
  | nil => rfl
  | @cons r p _ _ hrow _ ih =>
      have hid : r.eventId = uuid5 p.1.name := UUID.str_injective hrow.eventId.symm
      have htype : r.eventType = p.1.payload.eventType := hrow.eventType.symm
      have hactor : r.actorId = none := by
        have hnone : (none : Option String) = r.actorId.map UUID.str := hrow.actorId
        exact Option.map_eq_none_iff.mp hnone.symm
      have hresource : r.resourceId = some p.1.resourceId := by
        refine Option.map_injective UUID.str_injective (hrow.resourceId.symm.trans ?_)
        exact p.1.resource_eq
      rw [List.map_cons, List.map_cons, ih, AuditEvent.subject, Entity.subject, hid, htype, hactor,
        hresource]

/-- For all tables of a wallet that published no events: after any number of forced runs of the
command, of which one completes and the others may crash anywhere, and any deliveries of all rows
that were inserted, whatever their order and duplicates, no delivery has raised, the read model
holds exactly a debit and a credit of the stored amount for each completed transfer and a credit for
each seed, and the audit trail exactly one row for each account of a user, each transfer and each
seed. -/
theorem backfill_exact {uuid5 : String → UUID} {limit : ℕ} {db : Database} {t₀ : Time}
    {c c' : Config Op Op.Out Exc Unit Shared (List OutboxRow)} {i : ℕ}
    {deliveries audited : List OutboxRow} (hlimit : 2 ≤ limit) (hdb : Historical db)
    (huuid5 : ∀ x ∈ db.entities, ∀ y ∈ db.entities, uuid5 x.name = uuid5 y.name → x.name = y.name)
    (h : (quietBackfills uuid5 true).Run anyStep (historicalStart uuid5 true db t₀) c)
    (hdone : c.pool i = some (pure ())) (h' : (quietBackfills uuid5 true).Run anyStep c c')
    (hdeliveries : ∀ row, row ∈ deliveries ↔ row ∈ c'.shared.inserted)
    (haudited : ∀ row,
      row ∈ audited ↔ row ∈ c'.shared.inserted ∧ row.topic ∈ AuditConsumer.topics) :
    ∃ activities audits,
      deliverAll limit (ActivityConsumer.processMessage db) [] deliveries = some activities ∧
      deliverAll limit AuditConsumer.process [] audited = some audits ∧
      (activities.map (·.undated)).Perm (db.movements uuid5) ∧
      (audits.map (·.subject)).Perm (db.entities.map (Entity.subject uuid5)) := by
  have hdistinct := distinguished hdb.backfillable huuid5
  have hnodup := nodup_entities hdb.backfillable
  -- what the runs insert is about entities, and one run has covered them all
  have hreported := (inserted_reported (h.trans h')).1
  have hcovered (x : Entity) (hx : x ∈ db.entities) : Covered uuid5 c'.shared.inserted x :=
    (covered_of_completed h hdone hx).mono (inserted_mono h')
  obtain ⟨D, activities, hdeliver, hD, hholds⟩ := delivered_activities hdb hlimit hdistinct
    fun row hrow => hreported row ((hdeliveries row).mp hrow)
  obtain ⟨D', audits, hdeliver', hD', hholds'⟩ := delivered_audits hdb hlimit hdistinct
    fun row hrow => hreported row ((haudited row).mp hrow).1
  refine ⟨activities, audits, hdeliver, hdeliver', ?_, ?_⟩
  · -- the entities that were delivered are all of them, each of them once
    have hperm : (D.map (·.1)).Perm db.entities :=
      hD.perm_entities hdistinct hnodup hholds.known fun x hx => by
        obtain ⟨id, t, hrow⟩ := hcovered x hx
        exact ⟨id, t, (hdeliveries _).mpr hrow⟩
    have hcontents := hholds.contents.map TransactionActivity.undated
    rw [List.map_flatMap] at hcontents
    simp only [map_undated_activities] at hcontents
    rw [← flatMap_activities]
    refine hcontents.trans ?_
    rw [← List.flatMap_map (fun p : Entity × Time => p.1) (fun x => x.activities uuid5 0)]
    exact hperm.flatMap_right _
  · -- for the audit trail the topics of the rows are the right ones
    have hperm : (D'.map (·.1)).Perm db.entities :=
      hD'.perm_entities hdistinct hnodup hholds'.known fun x hx => by
        obtain ⟨id, t, hrow⟩ := hcovered x hx
        exact ⟨id, t, (haudited _).mpr ⟨hrow, x.topic_mem⟩⟩
    rw [hholds'.subjects]
    have hsubjects := hperm.map (Entity.subject uuid5)
    rwa [List.map_map] at hsubjects

/-! ## An example -/

/-- The tables of a wallet with two users: one has a seed, of which it has sent a part to the other,
while the transfer back has failed. -/
def historicalDb : Database where
  rows :=
    [.account ⟨systemAccountId, none, "active", 0, 0⟩, .account ⟨⟨1⟩, some ⟨101⟩, "active", 1, 1⟩,
      .account ⟨⟨2⟩, some ⟨102⟩, "active", 2, 2⟩,
      .ledger ⟨⟨10⟩, ⟨11⟩, systemAccountId, .debit, 500000, "USD", .seed, none, some "k:debit", 3⟩,
      .ledger ⟨⟨12⟩, ⟨11⟩, ⟨1⟩, .credit, 500000, "USD", .seed, none, some "k", 3⟩,
      .transfer ⟨⟨20⟩, ⟨1⟩, ⟨2⟩, 125000, "USD", .completed, none, "t", 4, 4⟩,
      .ledger ⟨⟨21⟩, ⟨22⟩, ⟨1⟩, .debit, 125000, "USD", .transfer, some ⟨20⟩, none, 4⟩,
      .ledger ⟨⟨23⟩, ⟨22⟩, ⟨2⟩, .credit, 125000, "USD", .transfer, some ⟨20⟩, none, 4⟩,
      .transfer ⟨⟨30⟩, ⟨2⟩, ⟨1⟩, 990000, "USD", .failed, some "INSUFFICIENT_BALANCE", "u", 5, 5⟩]

/-- The example satisfies what Postgres guarantees. -/
theorem historical_historicalDb : Historical historicalDb where
  keys := by decide +kernel
  foreignKeys := by decide +kernel
  checks := by decide +kernel
  fits := by decide +kernel
  status := by decide +kernel
  failureCode := by decide +kernel
  outbox := by decide +kernel

/-- The identifiers that are made of the names of the example are different. -/
theorem nodup_historicalDb :
    (historicalDb.entities.map fun x => backfillNamespace.v5 x.name).Nodup := by
  have hids : (historicalDb.entities.map fun x => backfillNamespace.v5 x.name) =
      [⟨0x2dd1e20635905be3844849b3c2adf87a⟩,
        ⟨0x653358a8046358c59f9674e392ab4456⟩,
        ⟨0xd64465b11a525729b62353585b2c1832⟩,
        ⟨0xa4a7be3c246254b5b294527e2f8e3c50⟩,
        ⟨0xbe70fa1fd87e5cb9af86f356f4d326ae⟩] := by
    decide +kernel
  rw [hids]
  decide +kernel

/-- The names of the example are told apart by their identifiers. -/
theorem names_historicalDb : ∀ x ∈ historicalDb.entities, ∀ y ∈ historicalDb.entities,
    backfillNamespace.v5 x.name = backfillNamespace.v5 y.name → x.name = y.name :=
  fun _ hx _ hy hid => congrArg Entity.name (List.inj_on_of_nodup_map nodup_historicalDb hx hy hid)

/-- A run crashes after its first row, another one completes, and a third one crashes after two
rows; all rows are delivered twice. -/
theorem backfill_exact_crashed :
    ∃ (rows : List OutboxRow) (activities : ActivityConsumer.Table) (audits : AuditConsumer.Table),
      rows.length = 16 ∧
      deliverAll 1000 (ActivityConsumer.processMessage historicalDb) [] rows = some activities ∧
      deliverAll 1000 AuditConsumer.process [] (rows.filter (·.topic ∈ AuditConsumer.topics)) =
        some audits ∧
      (activities.map (·.undated)).Perm (historicalDb.movements backfillNamespace.v5) ∧
      (audits.map (·.subject)).Perm
        (historicalDb.entities.map (Entity.subject backfillNamespace.v5)) := by
  let uuid5 := backfillNamespace.v5
  -- the first run is stopped after a row, the second one completes
  obtain ⟨c, hc, h⟩ := (Option.any_eq_true _ _).mp
    (show (play anyStep (player uuid5 true Quiet) (historicalStart uuid5 true historicalDb 0)
      ([.spawn 0] ++ steps 0 4 100 ++ [.stop 0, .spawn 0] ++ steps 1 18 200)).any
        (fun c => completed (c.pool 1) &&
          (play anyStep (player uuid5 true Quiet) c ([.spawn 0] ++ steps 2 7 300)).any
            fun c' => decide (c'.shared.inserted.length = 8)) = true by decide +kernel)
  obtain ⟨hdone, h'⟩ := Bool.and_eq_true_iff.mp h
  obtain ⟨c', hc', hlen⟩ := (Option.any_eq_true _ _).mp h'
  -- every row is delivered, and then again in reverse order
  let rows := c'.shared.inserted ++ c'.shared.inserted.reverse
  have hrows : ∀ row, row ∈ rows ↔ row ∈ c'.shared.inserted := fun row => by
    rw [List.mem_append, List.mem_reverse, or_self]
  have haudited : ∀ row, row ∈ rows.filter (·.topic ∈ AuditConsumer.topics) ↔
      row ∈ c'.shared.inserted ∧ row.topic ∈ AuditConsumer.topics := fun row => by
    rw [List.mem_filter, hrows, decide_eq_true_eq]
  obtain ⟨activities, audits, hactivities, haudits, hlegs, hsubjects⟩ :=
    backfill_exact (by decide : 2 ≤ 1000) historical_historicalDb names_historicalDb
      (run_of_play hc)
      (eq_of_completed hdone) (run_of_play hc') hrows haudited
  refine ⟨rows, activities, audits, ?_, hactivities, haudits, hlegs, hsubjects⟩
  have hlen' : c'.shared.inserted.length = 8 := of_decide_eq_true hlen
  rw [List.length_append, List.length_reverse, hlen']

end BackfillEvents

end MiniWallet

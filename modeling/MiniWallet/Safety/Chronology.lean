import MiniWallet.Safety.ExactHistory

/-!
# The chronology of backfilled history

A run of the backfill writes the accounts, then the transfers and then the seeds, each ordered by
`created_at`, and every event carries the time at which it was written. So the read model lists a
seed after all transfers.

* `Dated`: the events of a run, in the order in which they were written.
* `Chronological`: the movements of an account are listed in the order in which they happened.
* `chronological_iff`: a completed run keeps the chronology exactly if no account has a seed that is
  older than one of its transfers.
* `seed_listed_last`: a seed, and a transfer after it.
-/

namespace MiniWallet

open Process System Python

namespace BackfillEvents

variable {uuid5 : String → UUID} {force : Bool} {db : Database} {t₀ : Time}
  {c : Config Op Op.Out Exc Unit Shared (List OutboxRow)} {σ : List OutboxRow}

/-! ## The times of a run -/

/-- `datetime.now` of a run never returns an earlier time than before. -/
def Forward (w : World Shared (List OutboxRow)) : Label Op Op.Out Exc → Prop
  | .call i .now (.ok t) => ∀ row ∈ w.sess i, row.payload.occurredAt ≤ (t : Time)
  | _ => True

/-- Whether the clock of a step goes forward is decidable. -/
instance (w : World Shared (List OutboxRow)) (l : Label Op Op.Out Exc) : Decidable (Forward w l) :=
  match l with
  | .call i .now (.ok (t : Time)) =>
      inferInstanceAs (Decidable (∀ row ∈ w.sess i, row.payload.occurredAt ≤ t))
  | .call _ .now (.error _) | .call _ .countAccountOpened _ | .call _ .accountRows _
  | .call _ .transferRows _ | .call _ .seedRows _ | .call _ .uuid4 _ | .call _ (.insert _) _
  | .spawn | .stop _ | .env => isTrue trivial

/-- The order in which two entities are written: an account is before a transfer and that is before
a seed, and entities of one kind are ordered by their time. -/
def Entity.InOrder : Entity → Entity → Prop
  | account a, account b => a.createdAt ≤ b.createdAt
  | transfer t, transfer u => t.createdAt ≤ u.createdAt
  | seed e _, seed f _ => e.createdAt ≤ f.createdAt
  | account _, transfer _ | account _, seed _ _ | transfer _, seed _ _ => True
  | transfer _, account _ | seed _ _, account _ | seed _ _, transfer _ => False

/-- The queries of a run find the rows of `db` in order, and its clock does not go back. -/
def chronicle (db : Database) : Contract Op Op.Out Exc (List OutboxRow) where
  guard := fun _ _ => True
  possible := fun o r σ =>
    match o, r with
    | .accountRows, .ok rows => Query db.userAccounts (·.createdAt) rows
    | .transferRows, .ok rows =>
        ∃ stored, Query db.transfers (·.createdAt) stored ∧ rows = stored.map Transfer.loaded
    | .seedRows, .ok rows =>
        ∃ stored, Query db.seeds (·.createdAt) stored ∧
          rows = stored.map fun e => (e.loaded, db.owner e.accountId)
    | .now, .ok t => ∀ row ∈ σ, row.payload.occurredAt ≤ t
    | _, _ => True

/-- The rows of a run are those of the entities in `D`, written in this order at the given times. -/
structure Dated (uuid5 : String → UUID) (σ : List OutboxRow) (D : List (Entity × Time)) : Prop where
  rows : ∀ row ∈ σ, ∃ p ∈ D, ∃ id, row = p.1.row uuid5 id p.2
  reported : ∀ p ∈ D, ∃ id, p.1.row uuid5 id p.2 ∈ σ
  ordered : D.Pairwise fun p q => p.2 ≤ q.2

/-- One more row is written, at a time that is not before any other. -/
theorem Dated.snoc {D : List (Entity × Time)} (h : Dated uuid5 σ D) (x : Entity) (id : UUID)
    {t : Time}
    (ht : ∀ row ∈ σ, row.payload.occurredAt ≤ t) :
    Dated uuid5 (x.row uuid5 id t :: σ) (D ++ [(x, t)]) := by
  have hlast : ∀ p ∈ D, p.2 ≤ t := by
    intro p hp
    obtain ⟨id', hrow⟩ := h.reported p hp
    exact ht _ hrow
  refine ⟨List.forall_mem_cons.mpr ⟨⟨(x, t), by simp, id, rfl⟩, fun row hrow => ?_⟩,
    List.forall_mem_append.mpr ⟨fun p hp => ?_, List.forall_mem_singleton.mpr ⟨id, ?_⟩⟩, ?_⟩
  · obtain ⟨p, hp, hrow⟩ := h.rows row hrow
    exact ⟨p, List.mem_append_left _ hp, hrow⟩
  · obtain ⟨id', hrow⟩ := h.reported p hp
    exact ⟨id', List.mem_cons_of_mem _ hrow⟩
  · exact List.mem_cons_self
  · rw [List.pairwise_append]
    exact ⟨h.ordered, List.pairwise_singleton _ _, fun p hp q hq =>
      List.mem_singleton.mp hq ▸ hlast p hp⟩

/-- Publishing an event puts its entity at the end. -/
theorem dated_publish {L : List Entity} (x : Entity)
    (h : ∃ D, D.map (·.1) = L ∧ Dated uuid5 σ D) :
    Leads (chronicle db) (x.publish uuid5)
      (fun _ σ' => ∃ D, D.map (·.1) = L ++ [x] ∧ Dated uuid5 σ' D) σ := by
  obtain ⟨D, rfl, hD⟩ := h
  refine leads_bind (leads_perform trivial fun t ht => ?_)
  refine leads_bind (leads_perform trivial fun id _ => ?_)
  refine leads_perform trivial fun _ _ => ?_
  have hdated := hD.snoc x id ht
  exact ⟨_, by rw [List.map_append]; rfl, hdated⟩

/-- A loop puts its entities at the end. -/
theorem dated_forEach {α β : Type} {body : β → Program Unit} (load : α → β) (entity : α → Entity)
    {rows : List α} {L : List Entity}
    (hbody : ∀ a, body (load a) = (entity a).publish uuid5)
    (h : ∃ D, D.map (·.1) = L ∧ Dated uuid5 σ D) :
    Leads (chronicle db) (forEach body (rows.map load))
      (fun _ σ' => ∃ D, D.map (·.1) = L ++ rows.map entity ∧ Dated uuid5 σ' D) σ := by
  let I (done : List α) (σ' : List OutboxRow) :=
    ∃ D, D.map (·.1) = L ++ done.map entity ∧ Dated uuid5 σ' D
  have hinit : I [] σ := by simpa [I] using h
  refine leads_forEach load hinit fun a _ done σ₁ h₁ => ?_
  rw [hbody]
  refine leads_mono (dated_publish (entity a) h₁) fun _ σ₂ h₂ => ?_
  simpa [I] using h₂

/-- The loop over the accounts. -/
theorem dated_accounts {accounts : List Account} {L : List Entity}
    (h : ∃ D, D.map (·.1) = L ∧ Dated uuid5 σ D) :
    Leads (chronicle db) (forEach (publishAccount uuid5) accounts)
      (fun _ σ' => ∃ D, D.map (·.1) = L ++ accounts.map .account ∧ Dated uuid5 σ' D) σ := by
  have hloop : Leads (chronicle db) (forEach (publishAccount uuid5) (accounts.map id))
      (fun _ σ' => ∃ D, D.map (·.1) = L ++ accounts.map .account ∧ Dated uuid5 σ' D) σ :=
    dated_forEach id Entity.account publishAccount_eq h
  rwa [List.map_id] at hloop

/-- The entities of the database, in the order in which a run can write them. -/
def Written (db : Database) (L : List Entity) : Prop :=
  L.Pairwise Entity.InOrder ∧ L.Perm db.entities

/-- The results of the queries, one after another, are the entities of the database in order. -/
theorem written_queries {accounts : List Account} {transfers : List (Transfer Ticks)}
    {seeds : List (LedgerEntry Ticks)} (haccounts : Query db.userAccounts (·.createdAt) accounts)
    (htransfers : Query db.transfers (·.createdAt) transfers)
    (hseeds : Query db.seeds (·.createdAt) seeds) :
    Written db (accounts.map .account ++ transfers.map .transfer ++
      seeds.map fun e => .seed e (db.owner e.accountId)) := by
  refine ⟨?_, ((haccounts.perm.map _).append (htransfers.perm.map _)).append (hseeds.perm.map _)⟩
  rw [List.pairwise_append, List.pairwise_append]
  refine ⟨⟨List.pairwise_map.mpr haccounts.ordered, List.pairwise_map.mpr htransfers.ordered, ?_⟩,
    List.pairwise_map.mpr hseeds.ordered, ?_⟩
  · -- an account comes before a transfer
    intro x hx y hy
    obtain ⟨a, -, rfl⟩ := List.mem_map.mp hx
    obtain ⟨t, -, rfl⟩ := List.mem_map.mp hy
    trivial
  · -- and both before a seed
    intro x hx y hy
    obtain ⟨e, -, rfl⟩ := List.mem_map.mp hy
    rcases List.mem_append.mp hx with hx | hx
    · obtain ⟨a, -, rfl⟩ := List.mem_map.mp hx
      trivial
    · obtain ⟨t, -, rfl⟩ := List.mem_map.mp hx
      trivial

/-- The guard writes nothing. -/
theorem dated_preflight : Leads (chronicle db) (preflight force) (fun _ σ' => σ' = σ) σ := by
  unfold preflight
  split
  · exact leads_pure rfl
  · refine leads_bind (leads_perform trivial fun count _ => ?_)
    split
    · exact ((chronicle db).wp_throw after _).mpr trivial
    · exact leads_pure rfl

/-- A run that completes has written all entities in order. -/
theorem dated_backfill :
    Leads (chronicle db) (backfill uuid5 force)
      (fun _ σ' => ∃ D, Written db (D.map (·.1)) ∧ Dated uuid5 σ' D) [] := by
  -- nothing has been inserted at the start
  have hstart : ∃ D, D.map (·.1) = [] ∧ Dated uuid5 [] D :=
    ⟨[], rfl, fun row hrow => absurd hrow List.not_mem_nil,
      fun p hp => absurd hp List.not_mem_nil, .nil⟩
  refine leads_bind (leads_mono dated_preflight ?_)
  rintro _ _ rfl
  -- the accounts
  refine leads_bind (leads_perform trivial fun accounts haccounts => ?_)
  refine leads_bind (leads_mono (dated_accounts hstart) fun _ σ₁ h₁ => ?_)
  -- the transfers, then the seeds
  refine leads_bind (leads_perform trivial ?_)
  rintro _ ⟨transfers, htransfers, rfl⟩
  refine leads_bind
    (leads_mono (dated_forEach Transfer.loaded Entity.transfer publishTransfer_eq h₁)
    fun _ σ₂ h₂ => ?_)
  refine leads_bind (leads_perform trivial ?_)
  rintro _ ⟨seeds, hseeds, rfl⟩
  let load (e : LedgerEntry Ticks) := (e.loaded, db.owner e.accountId)
  let entity (e : LedgerEntry Ticks) := Entity.seed e (db.owner e.accountId)
  refine leads_mono (dated_forEach load entity (fun e => publishSeed_eq e _) h₂) ?_
  rintro _ σ₃ ⟨D, hD, hdated⟩
  refine ⟨D, ?_, hdated⟩
  rw [hD, List.nil_append]
  exact written_queries haccounts htransfers hseeds

/-- A run that has completed, and whose clock never went back, has written all entities in order. -/
theorem dated_of_completed {i : ℕ}
    (h : (quietBackfills uuid5 force).Run Forward (historicalStart uuid5 force db t₀) c)
    (hdone : c.pool i = some (pure ())) :
    ∃ D, Written db (D.map (·.1)) ∧ Dated uuid5 (c.sess i) D := by
  have hpost := h.wp (C := chronicle db)
    (Q := fun _ σ => ∃ D, Written db (D.map (·.1)) ∧ Dated uuid5 σ D) (R := fun _ _ => True) ?_
    (fun hp => by
      obtain rfl := hp
      exact dated_backfill) hdone
  · exact ((chronicle db).wp_pure after ()).mp hpost
  · -- the queries and the clock answer as the contract says
    intro c j o r hrun hforward henabled
    obtain rfl := db_eq hrun
    cases r with
    | error e => cases o <;> trivial
    | ok a =>
        cases o with
        | accountRows => exact henabled
        | transferRows => exact henabled
        | seedRows => exact henabled
        | now => exact hforward
        | countAccountOpened => trivial
        | uuid4 => trivial
        | insert _ => trivial

/-! ## Movements and rows -/

/-- The row of the read model is that of the leg: of a transfer, which it refers to, or of a
seed. -/
def Shows (uuid5 : String → UUID) (r : TransactionActivity Ticks) (e : LedgerEntry Ticks) : Prop :=
  r.accountId = e.accountId ∧ r.direction = e.direction ∧
    match e.entryType with
    | .transfer => r.entryType = "transfer" ∧ r.referenceId = e.referenceId
    | .seed => e.direction = .credit ∧ r.eventId = uuid5 ("seed.completed:" ++ e.id.str)
    | _ => False

/-- The movements of every account are listed in the order in which they happened. -/
def Chronological (uuid5 : String → UUID) (db : Database) (table : ActivityConsumer.Table) : Prop :=
  ∀ e ∈ db.ledgerEntries, ∀ e' ∈ db.ledgerEntries, e.accountId = e'.accountId →
    e.createdAt < e'.createdAt → ∀ r ∈ table, ∀ r' ∈ table, Shows uuid5 r e → Shows uuid5 r' e' →
      r.occurredAt ≤ r'.occurredAt

/-- No account has a seed that is older than a transfer of it. -/
def SeedsLast (db : Database) : Prop :=
  ∀ e ∈ db.seeds, ∀ e' ∈ db.ledgerEntries, e'.entryType = .transfer →
    e'.accountId = e.accountId → e'.createdAt ≤ e.createdAt

/-- The legs of transfers are as `transfer` writes them: with the accounts and the time of a
completed transfer. -/
def Booked (db : Database) : Prop :=
  ∀ e ∈ db.ledgerEntries, e.entryType = .transfer → ∃ t ∈ db.transfers, t.status = .completed ∧
    e.referenceId = some t.id ∧ e.createdAt = t.createdAt ∧
    ((e.direction = .debit ∧ e.accountId = t.fromAccountId) ∨
      (e.direction = .credit ∧ e.accountId = t.toAccountId))

section Movements

variable (hdb : Historical db) (hbooked : Booked db)
  (huuid5 : Distinguished uuid5 (· ∈ db.entities))

include hdb hbooked in
/-- The row of a leg of a transfer is one of a transfer of the same time. -/
theorem Shows.transfer {x : Entity} {t : Time} {r : TransactionActivity Ticks}
    {e : LedgerEntry Ticks}
    (h : Shows uuid5 r e) (hr : r ∈ x.activities uuid5 t) (hx : x ∈ db.entities)
    (he : e ∈ db.ledgerEntries) (hkind : e.entryType = .transfer) :
    ∃ tr, x = .transfer tr ∧ tr.createdAt = e.createdAt := by
  obtain ⟨-, -, hshows⟩ := h
  rw [hkind] at hshows
  obtain ⟨htype, href⟩ := hshows
  -- the leg was booked for a transfer, and the row shows the same one
  obtain ⟨tr, htr, -, href', hdate, -⟩ := hbooked e he hkind
  rw [href'] at href
  cases x with
  | account a => cases hr
  -- the two transfers have one identifier, so that they are one
  | transfer tr' =>
      have hid : tr'.id = tr.id := by
        unfold Entity.activities at hr
        cases hstatus : tr'.status <;> simp only [hstatus, List.mem_cons, List.not_mem_nil,
          or_false] at hr
        rcases hr with rfl | rfl <;> exact Option.some.inj href
      have hsame := List.inj_on_of_nodup_map (nodup_transfers hdb.backfillable)
        (Entity.transfer_mem.mp hx) htr hid
      exact ⟨tr', rfl, hsame ▸ hdate.symm⟩
  -- a seed is shown under another type
  | seed e' owner =>
      obtain rfl := List.mem_singleton.mp hr
      exact absurd htype (by decide : ("seed" : String) ≠ "transfer")

include huuid5 in
/-- The row of a seed is the one that the seed stands for. -/
theorem Shows.seed {x : Entity} {t : Time} {r : TransactionActivity Ticks} {e : LedgerEntry Ticks}
    (h : Shows uuid5 r e) (hr : r ∈ x.activities uuid5 t) (hx : x ∈ db.entities)
    (he : e ∈ db.ledgerEntries) (hkind : e.entryType = .seed) :
    e ∈ db.seeds ∧ x = .seed e (db.owner e.accountId) := by
  obtain ⟨-, -, hshows⟩ := h
  rw [hkind] at hshows
  obtain ⟨hcredit, hid⟩ := hshows
  have hseed : e ∈ db.seeds := List.mem_filter.mpr ⟨he, by simp [hkind, hcredit]⟩
  refine ⟨hseed, huuid5 _ _ hx (Entity.seed_mem.mpr ⟨hseed, rfl⟩) ?_⟩
  rw [← Entity.eventId_of_mem hr, hid]
  rfl

/-- Of two movements of one account, the entity of the older one is written first, unless it is a
seed and the other one a transfer. -/
theorem Dated.le {D : List (Entity × Time)} (hD : Dated uuid5 σ D)
    (hwritten : Written db (D.map (·.1)))
    {p q : Entity × Time} (hp : p ∈ D) (hq : q ∈ D) (horder : ¬ q.1.InOrder p.1) : p.2 ≤ q.2 := by
  by_cases hne : p = q
  · rw [hne]
  have hpairs : D.Pairwise fun p q => p.1.InOrder q.1 ∧ p.2 ≤ q.2 :=
    (List.pairwise_map.mp hwritten.1).and hD.ordered
  -- one of the two comes first, and it is not `q`
  let R (a b : Entity × Time) := (a.1.InOrder b.1 ∧ a.2 ≤ b.2) ∨ (b.1.InOrder a.1 ∧ b.2 ≤ a.2)
  have hsymm : Std.Symm R := ⟨fun _ _ h => h.symm⟩
  have hR : D.Pairwise R := hpairs.imp Or.inl
  rcases hR.forall hp hq hne with h | h
  · exact h.2
  · exact absurd h.1 horder

/-- Only transfers and seeds are shown. -/
theorem Shows.kind {r : TransactionActivity Ticks} {e : LedgerEntry Ticks} (h : Shows uuid5 r e) :
    e.entryType = .transfer ∨ e.entryType = .seed := by
  obtain ⟨-, -, hshows⟩ := h
  cases hkind : e.entryType with
  | transfer => exact .inl rfl
  | seed => exact .inr rfl
  | _ => simp only [hkind] at hshows

include hdb huuid5 in
/-- What a consumer's table holds after the deliveries of all rows of a completed run. -/
theorem mem_table {D D' : List (Entity × Time)} {rows : List OutboxRow}
    {table : ActivityConsumer.Table} (hD : Dated uuid5 σ D) (hwritten : Written db (D.map (·.1)))
    (hrows : ∀ row, row ∈ rows ↔ row ∈ σ) (hD' : Delivered uuid5 rows D')
    (hholds : HoldsActivities uuid5 (· ∈ db.entities) D' table) (r : TransactionActivity Ticks) :
    r ∈ table ↔ ∃ p ∈ D, r ∈ p.1.activities uuid5 p.2 := by
  have hknown : ∀ p ∈ D, p.1 ∈ db.entities := fun p hp =>
    hwritten.2.mem_iff.mp (List.mem_map_of_mem hp)
  have hnodup : (D.map (·.1)).Nodup := hwritten.2.nodup_iff.mpr (nodup_entities hdb.backfillable)
  -- an identifier that was delivered is that of a row, and so of the entity behind it
  have hfrom : ∀ q ∈ D', q ∈ D := by
    intro q hq
    obtain ⟨id, hrow⟩ := hD'.sound q hq
    obtain ⟨p, hp, id', hsame⟩ := hD.rows _ ((hrows _).mp hrow)
    have hid : q.1 = p.1 := huuid5 _ _ (hholds.known q hq) (hknown p hp)
      (UUID.str_injective (congrArg (·.payload.eventId) hsame))
    have htime : q.2 = p.2 := congrArg (·.payload.occurredAt) hsame
    exact Prod.ext hid htime ▸ hp
  -- and every row was delivered
  have hto : ∀ p ∈ D, p ∈ D' := by
    intro p hp
    obtain ⟨id, hrow⟩ := hD.reported p hp
    obtain ⟨q, hq, hid⟩ := hD'.complete _ ((hrows _).mpr hrow)
    have hsame : p.1 = q.1 :=
      huuid5 _ _ (hknown p hp) (hholds.known q hq) (UUID.str_injective hid)
    exact List.inj_on_of_nodup_map hnodup hp (hfrom q hq) hsame ▸ hq
  rw [hholds.contents.mem_iff, List.mem_flatMap]
  exact ⟨fun ⟨p, hp, hr⟩ => ⟨p, hfrom p hp, hr⟩, fun ⟨p, hp, hr⟩ => ⟨p, hto p hp, hr⟩⟩

section Listed

variable {D : List (Entity × Time)} {table : ActivityConsumer.Table} (hD : Dated uuid5 σ D)
  (hwritten : Written db (D.map (·.1)))
  (htable : ∀ r, r ∈ table ↔ ∃ p ∈ D, r ∈ p.1.activities uuid5 p.2)

include hdb hbooked huuid5 hD hwritten htable

/-- If no account has a seed that is older than a transfer, the table is chronological. -/
theorem chronological_of_seedsLast (hlast : SeedsLast db) : Chronological uuid5 db table := by
  intro e he e' he' haccount hlt r hr r' hr' hshows hshows'
  have hknown : ∀ p ∈ D, p.1 ∈ db.entities := fun p hp =>
    hwritten.2.mem_iff.mp (List.mem_map_of_mem hp)
  obtain ⟨p, hp, hr⟩ := (htable r).mp hr
  obtain ⟨q, hq, hr'⟩ := (htable r').mp hr'
  rw [Entity.occurredAt_of_mem hr, Entity.occurredAt_of_mem hr']
  refine hD.le hwritten hp hq fun horder => ?_
  rcases hshows.kind with hkind | hkind <;> rcases hshows'.kind with hkind' | hkind'
  · obtain ⟨t, ht, hdate⟩ := hshows.transfer hdb hbooked hr (hknown p hp) he hkind
    obtain ⟨t', ht', hdate'⟩ := hshows'.transfer hdb hbooked hr' (hknown q hq) he' hkind'
    rw [ht, ht'] at horder
    have hle : t'.createdAt ≤ t.createdAt := horder
    rw [hdate, hdate'] at hle
    exact absurd hlt (not_lt.mpr hle)
  · obtain ⟨t, ht, -⟩ := hshows.transfer hdb hbooked hr (hknown p hp) he hkind
    obtain ⟨-, hseed⟩ := hshows'.seed huuid5 hr' (hknown q hq) he' hkind'
    rw [ht, hseed] at horder
    exact horder
  · -- the older one is a seed
    obtain ⟨hseed, -⟩ := hshows.seed huuid5 hr (hknown p hp) he hkind
    exact absurd hlt (not_lt.mpr (hlast e hseed e' he' hkind' haccount.symm))
  · obtain ⟨-, hseed⟩ := hshows.seed huuid5 hr (hknown p hp) he hkind
    obtain ⟨-, hseed'⟩ := hshows'.seed huuid5 hr' (hknown q hq) he' hkind'
    rw [hseed, hseed'] at horder
    exact absurd hlt (not_lt.mpr horder)

omit hdb in
/-- If the table is chronological and no two events have the same time, then no account has a seed
that is older than a transfer. -/
theorem seedsLast_of_chronological (htimes : (σ.map (·.payload.occurredAt)).Nodup)
    (h : Chronological uuid5 db table) : SeedsLast db := by
  intro e hseed e' he' hkind' haccount
  by_contra hlt
  have he : e ∈ db.ledgerEntries := List.mem_of_mem_filter hseed
  obtain ⟨t, ht, hstatus, href, -, hside⟩ := hbooked e' he' hkind'
  have hreported : ∀ x ∈ db.entities, ∃ p ∈ D, p.1 = x := fun x hx =>
    List.mem_map.mp (hwritten.2.mem_iff.mpr hx)
  obtain ⟨p, hp, hpseed⟩ := hreported (.seed e (db.owner e.accountId))
    (Entity.seed_mem.mpr ⟨hseed, rfl⟩)
  obtain ⟨q, hq, hqtransfer⟩ := hreported (.transfer t) (Entity.transfer_mem.mpr ht)
  -- the row of the seed and that of the leg of the transfer
  obtain ⟨r, hr, hshows⟩ : ∃ r ∈ p.1.activities uuid5 p.2, Shows uuid5 r e := by
    obtain ⟨hkind, hcredit⟩ : e.entryType = .seed ∧ e.direction = .credit := by
      simpa using (List.mem_filter.mp hseed).2
    rw [hpseed]
    refine ⟨_, List.mem_singleton_self _, rfl, hcredit.symm, ?_⟩
    rw [hkind]
    exact ⟨hcredit, rfl⟩
  obtain ⟨r', hr', hshows'⟩ : ∃ r ∈ q.1.activities uuid5 q.2, Shows uuid5 r e' := by
    rw [hqtransfer]
    simp only [Entity.activities, hstatus, Shows, hkind', href]
    rcases hside with ⟨hdebit, hfrom⟩ | ⟨hcredit, hto⟩
    · exact ⟨_, List.mem_cons_self, hfrom.symm, hdebit.symm, rfl, rfl⟩
    · exact ⟨_, List.mem_cons_of_mem _ List.mem_cons_self, hto.symm, hcredit.symm, rfl, rfl⟩
  have hle : p.2 ≤ q.2 := by
    rw [← Entity.occurredAt_of_mem hr, ← Entity.occurredAt_of_mem hr']
    exact h e he e' he' haccount.symm (not_le.mp hlt) r ((htable r).mpr ⟨p, hp, hr⟩) r'
      ((htable r').mpr ⟨q, hq, hr'⟩) hshows hshows'
  have hge : q.2 ≤ p.2 := hD.le hwritten hq hp (by rw [hpseed, hqtransfer]; exact id)
  -- two events have the same time, so they are the same
  obtain ⟨id, hrow⟩ := hD.reported p hp
  obtain ⟨id', hrow'⟩ := hD.reported q hq
  have hsame : p.1.row uuid5 id p.2 = q.1.row uuid5 id' q.2 :=
    List.inj_on_of_nodup_map htimes hrow hrow' (le_antisymm hle hge)
  have hentity : p.1 = q.1 := huuid5 _ _ (hwritten.2.mem_iff.mp (List.mem_map_of_mem hp))
    (hwritten.2.mem_iff.mp (List.mem_map_of_mem hq))
    (UUID.str_injective (congrArg (·.payload.eventId) hsame))
  rw [hpseed, hqtransfer] at hentity
  cases hentity

end Listed

end Movements

/-- The table after the deliveries of the events of a completed run. -/
theorem chronology {limit i : ℕ} {deliveries : List OutboxRow} (hlimit : 2 ≤ limit)
    (hdb : Historical db) (hbooked : Booked db)
    (huuid5 : ∀ x ∈ db.entities, ∀ y ∈ db.entities, uuid5 x.name = uuid5 y.name → x.name = y.name)
    (h : (quietBackfills uuid5 force).Run Forward (historicalStart uuid5 force db t₀) c)
    (hdone : c.pool i = some (pure ()))
    (hdeliveries : ∀ row, row ∈ deliveries ↔ row ∈ c.sess i) :
    ∃ table,
      deliverAll limit (ActivityConsumer.processMessage db) [] deliveries = some table ∧
      (SeedsLast db → Chronological uuid5 db table) ∧
      (((c.sess i).map (·.payload.occurredAt)).Nodup →
        Chronological uuid5 db table → SeedsLast db) := by
  have hdistinct := distinguished hdb.backfillable huuid5
  -- the events of the run are dated in the order of the entities
  obtain ⟨D, hwritten, hD⟩ := dated_of_completed h hdone
  obtain ⟨hreported, hsess⟩ := inserted_reported h
  -- the read model has the rows of those events, and no others
  obtain ⟨D', table, hdeliver, hD', hholds⟩ := delivered_activities hdb hlimit hdistinct
    fun row hrow => hreported row (hsess i ((hdeliveries row).mp hrow))
  have htable := mem_table hdb hdistinct hD hwritten hdeliveries hD' hholds
  exact ⟨table, hdeliver, chronological_of_seedsLast hdb hbooked hdistinct hD hwritten htable,
    seedsLast_of_chronological hbooked hdistinct hD hwritten htable⟩

/-- For all tables of a wallet that published no events: after a run of the command that completes,
and whose clock never goes back, and any deliveries of its events, the read model is chronological
if no account has a seed that is older than one of its transfers, and, if no two events have the
same time, only then. -/
theorem chronological_iff {limit i : ℕ} {deliveries : List OutboxRow} (hlimit : 2 ≤ limit)
    (hdb : Historical db) (hbooked : Booked db)
    (huuid5 : ∀ x ∈ db.entities, ∀ y ∈ db.entities, uuid5 x.name = uuid5 y.name → x.name = y.name)
    (h : (quietBackfills uuid5 force).Run Forward (historicalStart uuid5 force db t₀) c)
    (hdone : c.pool i = some (pure ()))
    (hdeliveries : ∀ row, row ∈ deliveries ↔ row ∈ c.sess i) :
    ∃ table,
      deliverAll limit (ActivityConsumer.processMessage db) [] deliveries = some table ∧
      (SeedsLast db → Chronological uuid5 db table) ∧
      (((c.sess i).map (·.payload.occurredAt)).Nodup →
        (Chronological uuid5 db table ↔ SeedsLast db)) := by
  obtain ⟨table, hdeliver, hlast, honly⟩ :=
    chronology hlimit hdb hbooked huuid5 h hdone hdeliveries
  exact ⟨table, hdeliver, hlast, fun htimes => ⟨honly htimes, hlast⟩⟩

/-! ## An example -/

/-- The example has the books of its history. -/
theorem booked_historicalDb : Booked historicalDb := by
  unfold Booked
  decide +kernel

/-- A run on the example that completes while the clock advances. -/
theorem exists_completed :
    ∃ c, (quietBackfills backfillNamespace.v5 false).Run Forward
        (historicalStart backfillNamespace.v5 false historicalDb 0) c ∧
      c.pool 0 = some (pure ()) ∧ ((c.sess 0).map (·.payload.occurredAt)).Nodup := by
  let uuid5 := backfillNamespace.v5
  obtain ⟨c, hc, h⟩ := (Option.any_eq_true _ _).mp
    (show (play Forward (player uuid5 false Quiet) (historicalStart uuid5 false historicalDb 0)
      ([.spawn 0] ++ steps 0 19 100)).any (fun c => completed (c.pool 0) &&
        decide ((c.sess 0).map (·.payload.occurredAt)).Nodup) = true by decide +kernel)
  obtain ⟨hdone, htimes⟩ := Bool.and_eq_true_iff.mp h
  exact ⟨c, run_of_play hc, eq_of_completed hdone, of_decide_eq_true htimes⟩

/-- The events of the example are delivered, each once. -/
theorem chronological_iff_historical :
    ∃ (rows : List OutboxRow) (table : ActivityConsumer.Table),
      deliverAll 1000 (ActivityConsumer.processMessage historicalDb) [] rows = some table ∧
      (Chronological backfillNamespace.v5 historicalDb table ↔ SeedsLast historicalDb) := by
  obtain ⟨c, hc, hdone, htimes⟩ := exists_completed
  obtain ⟨table, hdeliver, -, hiff⟩ := chronological_iff (by decide : 2 ≤ 1000)
    historical_historicalDb booked_historicalDb names_historicalDb hc hdone fun row => Iff.rfl
  exact ⟨c.sess 0, table, hdeliver, hiff htimes⟩

/-- A user has a seed and later sends a part of it. After a run of the command and the deliveries of
its events, the transfer is listed before the seed. -/
theorem seed_listed_last :
    ∃ c table, (quietBackfills backfillNamespace.v5 false).Run Forward
        (historicalStart backfillNamespace.v5 false historicalDb 0) c ∧
      c.pool 0 = some (pure ()) ∧
      deliverAll 1000 (ActivityConsumer.processMessage historicalDb) [] (c.sess 0) = some table ∧
      ¬ Chronological backfillNamespace.v5 historicalDb table := by
  obtain ⟨c, hc, hdone, htimes⟩ := exists_completed
  obtain ⟨table, hdeliver, -, honly⟩ := chronology (by decide : 2 ≤ 1000) historical_historicalDb
    booked_historicalDb names_historicalDb hc hdone fun row => Iff.rfl
  refine ⟨c, table, hc, hdone, hdeliver, fun hchronological => ?_⟩
  have hlast := honly htimes hchronological
  unfold SeedsLast at hlast
  revert hlast
  decide +kernel

end BackfillEvents

end MiniWallet

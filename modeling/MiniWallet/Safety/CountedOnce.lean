import MiniWallet.Safety.Movements
import MiniWallet.Safety.Selection
import MiniWallet.Safety.Settlement

/-!
# Movements that are counted twice

The event of a service carries an identifier of its own, and the event that a backfill makes up
carries one that is made of the name of the entity. The consumer tells events apart by their
identifiers only. So a movement that has both events is counted twice, and the guard of the command
does not prevent that: it counts the outbox rows of another type, and the relays delete rows.

* `ActivityConsumer.process_cases`: what the consumer makes of one more event.
* `Held`: the invariant of the read model. It holds the lines of the services' events that have been
  processed, and those of the entities whose made-up events have been.
* `CountedOnce`: the read model shows each leg once, and no movement under two identifiers.
* `SelectsOld`: the condition on steps, that the queries of the runs find no movement from after the
  deploy.
* `counted_once_iff`: then each movement is counted once, as soon as some run comes to its end; and
  only runs that are cut short may find such a movement and leave the counts right.
* `counted_twice`: a transfer between the deploy and the backfill is counted twice.
-/

namespace MiniWallet

open Numeric Process System State
open BackfillEvents (Entity RunEvent Runs Reported Covered Distinguished openBackfills Selects Finds
  Returned)

variable {sha256 : String → String} {uuid5 : String → UUID} {c₀ : Wallet}
  {ok : World BackfillEvents.Shared (List OutboxRow) → RunEvent → Prop} {d : Deployment}

/-! ## The deployment, seen from its parts -/

namespace DeploymentRun

/-- What the services do in the deployment is a run of the wallet. -/
theorem walletRun (h : DeploymentRun sha256 uuid5 c₀ ok d) :
    ∃ t₀, WalletRun sha256 t₀ Unnamed c₀ ∧ (wallet sha256).Run Unnamed c₀ d.wallet := by
  induction h with
  | start h₀ => exact ⟨_, h₀, .refl⟩
  | serve _ hl hs _ ih =>
      obtain ⟨t₀, h₀, hrun⟩ := ih
      exact ⟨t₀, h₀, .step hrun hl hs⟩
  | relay _ _ _ ih => exact ih
  | backfill _ _ _ _ ih => exact ih
  | consume _ _ _ ih => exact ih

/-- The wallet keeps the events of the services, after those from before the deploy. -/
theorem outbox_eq (h : DeploymentRun sha256 uuid5 c₀ ok d) :
    d.wallet.shared.db.outbox = d.published ++ c₀.shared.db.outbox := by
  induction h with
  | start _ => rfl
  | serve _ _ _ hnew ih => rw [Deployment.serve, hnew, ih, List.append_assoc]
  | relay _ _ _ ih => exact ih
  | backfill _ _ _ _ ih => exact ih
  | consume _ _ _ ih => exact ih

/-- What was there before the deploy is still there. -/
theorem entities_subset (h : DeploymentRun sha256 uuid5 c₀ ok d) :
    c₀.shared.db.entities ⊆ d.wallet.shared.db.entities := by
  obtain ⟨t₀, h₀, hrun⟩ := h.walletRun
  exact entities_mono h₀ hrun

/-- What is there before a step of the services is there after it. -/
theorem entities_step (h : DeploymentRun sha256 uuid5 c₀ ok d) {l : Event} {c' : Wallet}
    (hl : Unnamed d.wallet.toWorld l) (hs : (wallet sha256).Step d.wallet l c') :
    d.wallet.shared.db.entities ⊆ c'.shared.db.entities := by
  obtain ⟨t₀, h₀, hrun⟩ := h.walletRun
  exact entities_mono (h₀.trans hrun) (.step .refl hl hs)

end DeploymentRun

/-- A step of a run leaves the other tables and the clock alone. -/
theorem runStep_tables {c c' : Runs} {l : RunEvent} (hs : (openBackfills uuid5).Step c l c')
    (hl : l ≠ .env) : c'.shared.db = c.shared.db ∧ c'.shared.clock = c.shared.clock := by
  cases hs with
  | spawn _ | stop _ => exact ⟨rfl, rfl⟩
  | env _ => exact absurd rfl hl
  | @call i o next r hp hr =>
      exact ⟨BackfillEvents.effect_db o r c.shared, BackfillEvents.effect_clock o r c.shared⟩

/-- A step of a run leaves the deployment with the runs after it. -/
theorem backfilled_view {runs' : Runs} {l : RunEvent}
    (hs : (openBackfills uuid5).Step d.runView l runs') (hl : l ≠ .env) :
    (d.backfilled runs').runView = runs' := by
  obtain ⟨hdb, hclock⟩ := runStep_tables hs hl
  obtain ⟨⟨⟨db, outbox, clock, inserted⟩, sess, size⟩, pool⟩ := runs'
  obtain rfl : db = d.wallet.shared.db := hdb
  obtain rfl : clock = d.wallet.shared.clock := hclock
  rfl

/-- What the runs do in the deployment is a run of their own, among changes around them, in which
they find only entities that are there in the end and satisfy the condition on the steps. -/
theorem DeploymentRun.backfillRun {K P All : Entity → Prop} (h : DeploymentRun sha256 uuid5 c₀ ok d)
    (hok : ∀ w l, ok w l → Selects K w l) (hP : ∀ x ∈ d.wallet.shared.db.entities, K x → P x)
    (hAll : ∀ x, All x → x ∈ c₀.shared.db.entities) :
    (openBackfills uuid5).Run (Finds P All)
      ((openBackfills uuid5).initial { db := c₀.shared.db, clock := c₀.shared.clock })
        d.runView := by
  induction h with
  | start _ => exact .refl
  | @serve d l c' new hrun hl hs _ ih =>
      -- the services only add entities, so that what is found stays there
      have hgrows := hrun.entities_step hl hs
      exact .step (ih fun x hx => hP x (hgrows hx)) (l := .env)
        ⟨trivial, fun x hx => hrun.entities_subset (hAll x hx)⟩ (.env rfl)
  | @relay d l relays' hrun _ _ ih =>
      exact .step (ih hP) (l := .env) ⟨trivial, fun x hx => hrun.entities_subset (hAll x hx)⟩
        (.env rfl)
  | @backfill d l runs' hrun hl hs hne ih =>
      rw [backfilled_view hs hne]
      -- what an admitted run selects is in the end among the entities
      refine .step (ih hP) ⟨?_, fun x hx => hrun.entities_subset (hAll x hx)⟩ hs
      have hselects := hok _ _ hl
      unfold Selects at hselects ⊢
      split at hselects
      · exact fun x hx => hP x (BackfillEvents.selected_subset _ _ hx) (hselects x hx)
      · trivial
  | consume _ _ _ ih => exact ih hP

/-- Every query finds entities. -/
theorem selects_any (w : World BackfillEvents.Shared (List OutboxRow)) (l : RunEvent) (_ : ok w l) :
    Selects (fun _ => True) w l := by
  unfold Selects
  split <;> simp

/-- Every row that a run has inserted is about an entity of the wallet. -/
theorem DeploymentRun.reported (h : DeploymentRun sha256 uuid5 c₀ ok d) :
    ∀ row ∈ d.runs.shared.inserted, Reported uuid5 (· ∈ d.wallet.shared.db.entities) row :=
  (BackfillEvents.reported_of_finds (fun _ => False) (fun _ _ he => he) rfl
    (h.backfillRun selects_any (fun _ hx _ => hx) fun _ hx => hx.elim)).1

/-- A run that has completed has inserted a row for everything from before the deploy. -/
theorem DeploymentRun.covered (h : DeploymentRun sha256 uuid5 c₀ ok d) {i : ℕ}
    (hdone : d.runs.pool i = some (pure ())) {x : Entity} (hx : x ∈ c₀.shared.db.entities) :
    Covered uuid5 d.runs.shared.inserted x :=
  BackfillEvents.covered_of_finds (P := fun _ => True) (· ∈ c₀.shared.db.entities)
    (fun _ _ he => he) rfl (h.backfillRun selects_any (fun _ _ _ => trivial)
      fun _ hx => hx) hdone hx

/-! ## One more event -/

/-- An event of a list of processed events has the same identifier. -/
abbrev Processed (V : List EventEnvelope) (e : EventEnvelope) : Prop :=
  e.eventId ∈ V.map (·.eventId)

namespace ActivityConsumer

variable {db : Database} {table : Table} {e : EventEnvelope} {V : List EventEnvelope}
  {rows : List (TransactionActivity Decimal)}

/-- A row of an event has a key of the table exactly if its event has been processed. -/
theorem key_mem_iff (hcontents : (table.map (·.line)).Perm (V.flatMap (·.lines)))
    (hread : Readable db e rows)
    (hsame : ∀ e' ∈ V, e'.eventId = e.eventId →
      e'.lines.map (·.account) = e.lines.map (·.account))
    {r : TransactionActivity Decimal} (hr : r ∈ rows) :
    r.key ∈ table.map (·.key) ↔ Processed V e := by
  have hline : r.stored.line ∈ e.lines := by
    rw [← hread.lines]
    exact List.mem_map.mpr ⟨r, hr, rfl⟩
  have hid : r.stored.line.eventId = e.eventId := EventEnvelope.eventId_of_mem hline
  rw [TransactionActivity.line_eventId] at hid
  -- a row of the table with this key comes from the lines of one of the processed events
  constructor
  · intro hkey
    obtain ⟨r', hr', hkey'⟩ := List.mem_map.mp hkey
    obtain ⟨e', he', hline'⟩ := List.mem_flatMap.mp (hcontents.mem_iff.mp (List.mem_map_of_mem hr'))
    refine List.mem_map.mpr ⟨e', he', ?_⟩
    have heventId : r'.eventId = r.stored.eventId := congrArg Prod.fst hkey'
    rw [← EventEnvelope.eventId_of_mem hline', TransactionActivity.line_eventId, heventId, hid]
  · -- an event with this identifier has a line for the account of the row
    intro hprocessed
    obtain ⟨e', he', heq⟩ := List.mem_map.mp hprocessed
    have haccount : r.stored.line.account ∈ e.lines.map (·.account) := List.mem_map_of_mem hline
    rw [← hsame e' he' heq, TransactionActivity.line_account] at haccount
    obtain ⟨l, hl, hlaccount⟩ := List.mem_map.mp haccount
    have hmem : l ∈ table.map (·.line) := hcontents.mem_iff.mpr (List.mem_flatMap.mpr ⟨e', he', hl⟩)
    obtain ⟨r', hr', rfl⟩ := List.mem_map.mp hmem
    refine List.mem_map.mpr ⟨r', hr', ?_⟩
    have heventId := EventEnvelope.eventId_of_mem hl
    rw [TransactionActivity.line_eventId, heq, ← hid] at heventId
    rw [TransactionActivity.line_account] at hlaccount
    have hsameId : r'.eventId = r.eventId := UUID.str_injective heventId
    have hsameAccount : r'.accountId = r.accountId := UUID.str_injective hlaccount
    rw [TransactionActivity.key, TransactionActivity.key, hsameId, hsameAccount]

/-- An event that has been processed changes nothing, and another one adds its lines. -/
theorem process_cases (hcontents : (table.map (·.line)).Perm (V.flatMap (·.lines)))
    (hread : Readable db e rows)
    (hsame : ∀ e' ∈ V, e'.eventId = e.eventId →
      e'.lines.map (·.account) = e.lines.map (·.account)) :
    (Processed V e → process db table e = .ok table) ∧
      (¬ Processed V e → ∃ table', process db table e = .ok table' ∧
        (table'.map (·.line)).Perm ((e :: V).flatMap (·.lines))) := by
  have hkey {r : TransactionActivity Decimal} (hr : r ∈ rows) :=
    key_mem_iff hcontents hread hsame hr
  refine ⟨fun hprocessed => process_known hread fun r hr => (hkey hr).mpr hprocessed,
    fun hnew => ?_⟩
  refine ⟨_, process_new hread fun r hr hmem => hnew ((hkey hr).mp hmem), ?_⟩
  rw [List.map_append, List.map_reverse, List.map_map, List.flatMap_cons, ← hread.lines]
  exact (List.reverse_perm _).append hcontents

end ActivityConsumer

/-! ## What the read model holds -/

/-- The events that are processed: those of the services in `L`, and made-up events of the entities
in `D`, each with the time of the one that came first. -/
def processedEvents (uuid5 : String → UUID) (L : List OutboxRow) (D : List (Entity × Time)) :
    List EventEnvelope :=
  L.map (·.payload) ++ D.map fun p => p.1.event uuid5 p.2

/-- The read model holds the lines of the events in `L` and of the entities in `D`. -/
structure Held (uuid5 : String → UUID) (d : Deployment) (L : List OutboxRow)
    (D : List (Entity × Time)) : Prop where
  /-- The events are events of services. -/
  published : L ⊆ d.published
  distinct : L.Nodup
  /-- The entities are in the tables, and runs have inserted rows for them. -/
  known : ∀ p ∈ D, p.1 ∈ d.wallet.shared.db.entities
  covered : ∀ p ∈ D, Covered uuid5 d.runs.shared.inserted p.1
  different : (D.map (·.1)).Nodup
  /-- Everything that has been processed is there. -/
  delivered : ∀ e ∈ d.delivered, (∃ o ∈ L, o.payload = e) ∨
    ∃ p ∈ D, e.eventId = (uuid5 p.1.name).str
  contents : (d.table.map (·.line)).Perm ((processedEvents uuid5 L D).flatMap (·.lines))

/-- The accounts of an entity do not depend on the time of its event. -/
theorem BackfillEvents.Entity.accounts_lines (x : Entity) (t t' : Time) :
    (x.event uuid5 t).lines.map (·.account) = (x.event uuid5 t').lines.map (·.account) := by
  rw [EventEnvelope.lines, EventEnvelope.lines, Entity.event, Entity.event]
  cases x.payload <;> rfl

namespace Held

variable {L : List OutboxRow} {D : List (Entity × Time)}

/-- The entities of a deployment are told apart by their identifiers, which are of version 5. -/
structure Named (uuid5 : String → UUID) (db : Database) : Prop where
  distinguished : Distinguished uuid5 (· ∈ db.entities)
  version : ∀ name, (uuid5 name).version = 5

/-- What is told apart later is told apart before. -/
theorem Named.mono {db db' : Database} (h : Named uuid5 db') (hsub : db.entities ⊆ db'.entities) :
    Named uuid5 db where
  distinguished := fun x y hx hy => h.distinguished x y (hsub hx) (hsub hy)
  version := h.version

/-- An event of the services is in the wallet's outbox. -/
theorem mem_outbox (h : DeploymentRun sha256 uuid5 c₀ ok d) {o : OutboxRow} (ho : o ∈ d.published) :
    o ∈ d.wallet.shared.db.outbox := by
  rw [h.outbox_eq]
  exact List.mem_append_left _ ho

/-- No event of the services has the identifier of a made-up one. -/
theorem ne_named (h : DeploymentRun sha256 uuid5 c₀ ok d)
    (hversion : ∀ name, (uuid5 name).version = 5)
    {o : OutboxRow} (ho : o ∈ d.published) (name : String) :
    o.payload.eventId ≠ (uuid5 name).str := by
  obtain ⟨t₀, h₀, hrun⟩ := h.walletRun
  exact eventId_ne (h₀.trans hrun) (mem_outbox h ho) (hversion name)

/-- Events of the services with the same identifier are equal. -/
theorem eq_of_eventId (h : DeploymentRun sha256 uuid5 c₀ ok d) {o o' : OutboxRow}
    (ho : o ∈ d.published) (ho' : o' ∈ d.published) (heq : o.payload.eventId = o'.payload.eventId) :
    o = o' := by
  obtain ⟨t₀, h₀, hrun⟩ := h.walletRun
  exact List.inj_on_of_nodup_map (eventIds_nodup (h₀.trans hrun)) (mem_outbox h ho)
    (mem_outbox h ho')
    heq

/-- An event of the services has been processed exactly if it is in `L`. -/
theorem processed_published (hH : Held uuid5 d L D) (h : DeploymentRun sha256 uuid5 c₀ ok d)
    (hversion : ∀ name, (uuid5 name).version = 5) {o : OutboxRow} (ho : o ∈ d.published) :
    Processed (processedEvents uuid5 L D) o.payload ↔ o ∈ L := by
  constructor
  · intro hprocessed
    obtain ⟨e, he, heq⟩ := List.mem_map.mp hprocessed
    rcases List.mem_append.mp he with he | he
    · obtain ⟨o', ho', rfl⟩ := List.mem_map.mp he
      exact eq_of_eventId h (hH.published ho') ho heq ▸ ho'
    · obtain ⟨p, -, rfl⟩ := List.mem_map.mp he
      exact absurd heq.symm (ne_named h hversion ho p.1.name)
  · intro hL
    exact List.mem_map_of_mem (List.mem_append_left _ (List.mem_map_of_mem hL))

/-- A made-up event has been processed exactly if its entity is in `D`. -/
theorem processed_entity (hH : Held uuid5 d L D) (h : DeploymentRun sha256 uuid5 c₀ ok d)
    (hnamed : Named uuid5 d.wallet.shared.db) {x : Entity} (hx : x ∈ d.wallet.shared.db.entities)
    (t : Time) : Processed (processedEvents uuid5 L D) (x.event uuid5 t) ↔ x ∈ D.map (·.1) := by
  constructor
  · intro hprocessed
    obtain ⟨e, he, heq⟩ := List.mem_map.mp hprocessed
    rcases List.mem_append.mp he with he | he
    · obtain ⟨o, ho, rfl⟩ := List.mem_map.mp he
      exact absurd heq (ne_named h hnamed.version (hH.published ho) x.name)
    · obtain ⟨p, hp, rfl⟩ := List.mem_map.mp he
      have hsame : p.1 = x := hnamed.distinguished _ _ (hH.known p hp) hx (UUID.str_injective heq)
      exact hsame ▸ List.mem_map_of_mem hp
  · intro hD
    obtain ⟨p, hp, rfl⟩ := List.mem_map.mp hD
    refine List.mem_map.mpr ⟨p.1.event uuid5 p.2, ?_, rfl⟩
    exact List.mem_append_right _ (List.mem_map.mpr ⟨p, hp, rfl⟩)

/-- The consumer processes an event of the services. -/
theorem consume_published (hH : Held uuid5 d L D) (h : DeploymentRun sha256 uuid5 c₀ ok d)
    (hversion : ∀ name, (uuid5 name).version = 5) {o : OutboxRow} (ho : o ∈ d.published)
    {table : ActivityConsumer.Table}
    (hprocess : ActivityConsumer.process d.wallet.shared.db d.table o.payload = .ok table) :
    ∃ L', Held uuid5 (d.consumed o.payload table) L' D := by
  obtain ⟨t₀, h₀, hrun⟩ := h.walletRun
  obtain ⟨rows, hread⟩ := outbox_readable (h₀.trans hrun) o (mem_outbox h ho)
  -- no other event, of a service or of the backfill, has the identifier of this one
  have hsame : ∀ e ∈ processedEvents uuid5 L D, e.eventId = o.payload.eventId →
      e.lines.map (·.account) = o.payload.lines.map (·.account) := by
    intro e he heq
    rcases List.mem_append.mp he with he | he
    · obtain ⟨o', ho', rfl⟩ := List.mem_map.mp he
      rw [eq_of_eventId h (hH.published ho') ho heq]
    · obtain ⟨p, -, rfl⟩ := List.mem_map.mp he
      exact absurd heq.symm (ne_named h hversion ho p.1.name)
  obtain ⟨hknown, hnew⟩ := ActivityConsumer.process_cases hH.contents hread hsame
  -- the delivery is recorded whether or not the event was processed before
  have hdelivered {L' : List OutboxRow} (hL' : L ⊆ L') (hmem : o ∈ L') :
      ∀ e ∈ o.payload :: d.delivered, (∃ o' ∈ L', o'.payload = e) ∨
        ∃ p ∈ D, e.eventId = (uuid5 p.1.name).str := by
    refine List.forall_mem_cons.mpr ⟨.inl ⟨o, hmem, rfl⟩, fun e he => ?_⟩
    exact (hH.delivered e he).imp_left fun ⟨o', ho', heq⟩ => ⟨o', hL' ho', heq⟩
  by_cases hL : o ∈ L
  · -- a redelivery changes nothing
    rw [hknown ((hH.processed_published h hversion ho).mpr hL)] at hprocess
    cases hprocess
    exact ⟨L, { hH with delivered := hdelivered (List.Subset.refl _) hL }⟩
  · -- a first delivery adds the lines of the event
    obtain ⟨table', hprocess', hcontents⟩ :=
      hnew fun hprocessed => hL ((hH.processed_published h hversion ho).mp hprocessed)
    rw [hprocess'] at hprocess
    cases hprocess
    exact ⟨o :: L, { hH with
      published := List.cons_subset.mpr ⟨ho, hH.published⟩
      distinct := List.nodup_cons.mpr ⟨hL, hH.distinct⟩
      delivered := hdelivered (List.subset_cons_self _ _) List.mem_cons_self
      contents := hcontents }⟩

/-- The consumer processes a made-up event. -/
theorem consume_entity (hH : Held uuid5 d L D) (h : DeploymentRun sha256 uuid5 c₀ ok d)
    (hnamed : Named uuid5 d.wallet.shared.db) {x : Entity} (hx : x ∈ d.wallet.shared.db.entities)
    {id : UUID} {t : Time} (hrow : x.row uuid5 id t ∈ d.runs.shared.inserted)
    {table : ActivityConsumer.Table}
    (hprocess : ActivityConsumer.process d.wallet.shared.db d.table (x.event uuid5 t) = .ok table) :
    ∃ D', Held uuid5 (d.consumed (x.event uuid5 t) table) L D' := by
  obtain ⟨t₀, h₀, hrun⟩ := h.walletRun
  obtain ⟨rows, hread, -⟩ := Entity.readable uuid5 (backfillable (h₀.trans hrun)) hx t
  have hsame : ∀ e ∈ processedEvents uuid5 L D, e.eventId = (x.event uuid5 t).eventId →
      e.lines.map (·.account) = (x.event uuid5 t).lines.map (·.account) := by
    intro e he heq
    rcases List.mem_append.mp he with he | he
    · obtain ⟨o, ho, rfl⟩ := List.mem_map.mp he
      exact absurd heq (ne_named h hnamed.version (hH.published ho) x.name)
    · obtain ⟨p, hp, rfl⟩ := List.mem_map.mp he
      have hsame : p.1 = x := hnamed.distinguished _ _ (hH.known p hp) hx (UUID.str_injective heq)
      rw [hsame]
      exact x.accounts_lines p.2 t
  obtain ⟨hknown, hnew⟩ := ActivityConsumer.process_cases hH.contents hread hsame
  have hdelivered {D' : List (Entity × Time)} (hD' : D ⊆ D') (hmem : x ∈ D'.map (·.1)) :
      ∀ e ∈ x.event uuid5 t :: d.delivered, (∃ o ∈ L, o.payload = e) ∨
        ∃ p ∈ D', e.eventId = (uuid5 p.1.name).str := by
    refine List.forall_mem_cons.mpr ⟨.inr ?_, fun e he => ?_⟩
    · obtain ⟨p, hp, rfl⟩ := List.mem_map.mp hmem
      exact ⟨p, hp, rfl⟩
    · exact (hH.delivered e he).imp_right fun ⟨p, hp, heq⟩ => ⟨p, hD' hp, heq⟩
  by_cases hD : x ∈ D.map (·.1)
  · rw [hknown ((hH.processed_entity h hnamed hx t).mpr hD)] at hprocess
    cases hprocess
    exact ⟨D, { hH with delivered := hdelivered (List.Subset.refl _) hD }⟩
  · obtain ⟨table', hprocess', hcontents⟩ :=
      hnew fun hprocessed => hD ((hH.processed_entity h hnamed hx t).mp hprocessed)
    rw [hprocess'] at hprocess
    cases hprocess
    refine ⟨(x, t) :: D, { hH with
      known := List.forall_mem_cons.mpr ⟨hx, hH.known⟩
      covered := List.forall_mem_cons.mpr ⟨⟨id, t, hrow⟩, hH.covered⟩
      different := List.nodup_cons.mpr ⟨hD, hH.different⟩
      delivered := hdelivered (List.subset_cons_self _ _) List.mem_cons_self
      contents := hcontents.trans ?_ }⟩
    -- the new event stands among those of the entities
    refine List.Perm.flatMap_right _ ?_
    rw [processedEvents, processedEvents, List.map_cons]
    exact List.perm_middle.symm

end Held

/-- Every row that has been inserted stays on record. -/
theorem inserted_subset {c c' : Runs} {l : RunEvent} (hs : (openBackfills uuid5).Step c l c') :
    c.shared.inserted ⊆ c'.shared.inserted := by
  cases hs with
  | spawn _ | stop _ => exact List.Subset.refl _
  | call _ _ => exact BackfillEvents.inserted_effect _ _ _
  | env he => exact he ▸ List.Subset.refl _

/-- In every run of a deployment the read model holds the lines of exactly the events that have been
processed, those of one identifier once. -/
theorem held (h : DeploymentRun sha256 uuid5 c₀ ok d)
    (hnamed : Held.Named uuid5 d.wallet.shared.db) :
    ∃ L D, Held uuid5 d L D := by
  induction h with
  | start _ =>
      exact ⟨[], [], List.nil_subset _, .nil, fun _ hp => (nomatch hp), fun _ hp => (nomatch hp),
        .nil, fun _ he => (nomatch he), .refl _⟩
  -- the services publish an event, which nobody has delivered yet
  | @serve d l c' new hrun hl hs _ ih =>
      have hgrows := hrun.entities_step hl hs
      obtain ⟨L, D, hH⟩ := ih (hnamed.mono hgrows)
      refine ⟨L, D, { hH with published := ?_, known := fun p hp => hgrows (hH.known p hp) }⟩
      exact List.Subset.trans hH.published (List.subset_append_right _ _)
  | relay _ _ _ ih =>
      obtain ⟨L, D, hH⟩ := ih hnamed
      exact ⟨L, D, { hH with }⟩
  -- the runs insert rows, so more entities are covered than before
  | @backfill d l runs' _ _ hs _ ih =>
      obtain ⟨L, D, hH⟩ := ih hnamed
      have hsub : d.runView.shared.inserted ⊆ runs'.shared.inserted := inserted_subset hs
      exact ⟨L, D, { hH with covered := fun p hp => (hH.covered p hp).mono hsub }⟩
  | @consume d o table hrun ho hprocess ih =>
      obtain ⟨L, D, hH⟩ := ih hnamed
      -- what is consumed is an event of the services, or a row about an entity
      rcases List.mem_append.mp ho with ho | ho
      · obtain ⟨L', hH'⟩ := hH.consume_published hrun hnamed.version ho hprocess
        exact ⟨L', D, hH'⟩
      · obtain ⟨x, hx, id, t, -, rfl⟩ := hrun.reported o ho
        obtain ⟨D', hH'⟩ := hH.consume_entity hrun hnamed hx ho hprocess
        exact ⟨L, D', hH'⟩

/-! ## Once everything is delivered -/

/-- Every event since the deploy has been processed. -/
def Deployment.AllDelivered (d : Deployment) : Prop := ∀ o ∈ d.events, o.payload ∈ d.delivered

/-- The read model shows a row for each leg of a completed transfer and a row for each seed; and no
movement from after the deploy, which shows under the identifier of its own event, shows under the
identifier that is made of its name. -/
structure CountedOnce (uuid5 : String → UUID) (c₀ : Wallet) (d : Deployment) : Prop where
  legs : ((d.table.filter (·.ofMovement)).map (·.leg)).Perm d.wallet.shared.db.movementLegs
  once : ∀ x ∈ d.wallet.shared.db.entities, x.moves = true → x ∉ c₀.shared.db.entities →
    uuid5 x.name ∉ d.table.map (·.eventId)

/-- The queries of the runs in `who` find no completed transfer and no seed from after the
deploy. -/
def SelectsOld (who : ℕ → Prop) (db₀ : Database) :
    World BackfillEvents.Shared (List OutboxRow) → RunEvent → Prop
  | w, .call i o (.ok _) =>
      who i → ∀ x ∈ w.shared.db.selected o, x.moves = true → x ∈ db₀.entities
  | _, _ => True

/-- Whether a query finds no movement from after the deploy is decidable. -/
instance (who : ℕ → Prop) [DecidablePred who] (db₀ : Database)
    (w : World BackfillEvents.Shared (List OutboxRow)) (l : RunEvent) :
    Decidable (SelectsOld who db₀ w l) :=
  match l with
  | .call i o (.ok _) => inferInstanceAs
      (Decidable (who i → ∀ x ∈ w.shared.db.selected o, x.moves = true → x ∈ db₀.entities))
  | .call _ _ (.error _) | .spawn | .stop _ | .env => inferInstanceAs (Decidable True)

/-- The run of the command has come to its end. -/
def Deployment.Completed (d : Deployment) (i : ℕ) : Prop := d.runs.pool i = some (pure ())

/-- If the queries find no movement from after the deploy, the runs insert rows about movements from
before it only. -/
theorem DeploymentRun.reported_old
    (h : DeploymentRun sha256 uuid5 c₀ (SelectsOld (fun _ => True) c₀.shared.db) d) :
    ∀ row ∈ d.runs.shared.inserted,
      Reported uuid5 (fun x => x ∈ d.wallet.shared.db.entities ∧
        (x.moves = true → x ∈ c₀.shared.db.entities)) row := by
  refine (BackfillEvents.reported_of_finds (fun _ => False) (fun _ _ he => he) rfl (h.backfillRun
    (K := fun x => x.moves = true → x ∈ c₀.shared.db.entities) (fun w l hl => ?_)
    (fun _ hx hold => ⟨hx, hold⟩) fun _ hx => hx.elim)).1
  unfold Selects
  split
  · exact hl trivial
  · trivial

/-- In every run of a deployment a clerk can log the runs of the command. If what the logged queries
of the runs in `who` have returned holds no movement from after the deploy, the deployment is one in
which these runs find none. -/
theorem DeploymentRun.logged (who : ℕ → Prop) (h : DeploymentRun sha256 uuid5 c₀ anyStep d) :
    ∃ logs, BackfillEvents.Observed uuid5 { db := c₀.shared.db, clock := c₀.shared.clock } logs
        d.runView ∧
      ((∀ i, who i → ∀ o r, ⟨o, r⟩ ∈ logs i → ∀ x ∈ d.wallet.shared.db.entities, Returned o r x →
          x.moves = true → x ∈ c₀.shared.db.entities) →
        DeploymentRun sha256 uuid5 c₀ (SelectsOld who c₀.shared.db) d) := by
  induction h with
  | start h₀ => exact ⟨_, .start, fun _ => .start h₀⟩
  -- for the clerk this is a step of the environment
  | serve hrun hl hs hnew ih =>
      obtain ⟨logs, hobserved, hold⟩ := ih
      have hgrows := hrun.entities_step hl hs
      refine ⟨logs, .step (l := .env) hobserved trivial (.env rfl), fun hreturned => ?_⟩
      refine .serve (hold fun i hi o r hentry x hx => ?_) hl hs hnew
      exact hreturned i hi o r hentry x (hgrows hx)
  -- so are the steps of the relays
  | relay hrun hs hl ih =>
      obtain ⟨logs, hobserved, hold⟩ := ih
      exact ⟨logs, .step (l := .env) hobserved trivial (.env rfl), fun hreturned =>
        .relay (hold hreturned) hs hl⟩
  | @backfill d l runs' _ _ hs hl ih =>
      obtain ⟨logs, hobserved, hold⟩ := ih
      -- the steps of the runs are what the clerk logs
      refine ⟨l.log logs, ?_, fun hreturned => ?_⟩
      · rw [backfilled_view hs hl]
        exact .step hobserved trivial hs
      · refine .backfill
          (hold fun i hi o r hentry => hreturned i hi o r (l.log_subset logs i hentry))
          ?_ hs hl
        unfold SelectsOld
        split
        · next i o a _ =>
          cases hs with
          | call _ hends =>
              -- a query that finds an entity returns it, and the log keeps what was returned
              intro hi x hx
              refine hreturned i hi o (.ok a) ?_ x (BackfillEvents.selected_subset _ _ hx)
                (BackfillEvents.returned_of_ends hends hx)
              rw [Label.log, Function.update_self]
              exact List.mem_append_right _ List.mem_cons_self
        · trivial
  | consume _ ho hprocess ih =>
      obtain ⟨logs, hobserved, hold⟩ := ih
      exact ⟨logs, hobserved, fun hreturned => .consume (hold hreturned) ho hprocess⟩

/-- A run that has come to its end has inserted a row for every movement that its queries have
found. -/
theorem DeploymentRun.completed_old (h : DeploymentRun sha256 uuid5 c₀ anyStep d)
    (hold : ∀ x ∈ d.wallet.shared.db.entities, x.moves = true →
      Covered uuid5 d.runs.shared.inserted x → x ∈ c₀.shared.db.entities) :
    DeploymentRun sha256 uuid5 c₀ (SelectsOld d.Completed c₀.shared.db) d := by
  obtain ⟨logs, hobserved, hunder⟩ := h.logged d.Completed
  refine hunder fun i hdone o r hentry x hx hreturned hmoves => hold x hx hmoves ?_
  exact BackfillEvents.covered_of_returned (c := d.runView) hobserved hdone hentry hreturned

namespace Held

variable {L : List OutboxRow} {D : List (Entity × Time)}

/-- Once everything is delivered, the events of the services are all there. -/
theorem perm_published (hH : Held uuid5 d L D) (h : DeploymentRun sha256 uuid5 c₀ ok d)
    (hversion : ∀ name, (uuid5 name).version = 5) (hall : d.AllDelivered) : L.Perm d.published := by
  obtain ⟨t₀, h₀, hrun⟩ := h.walletRun
  have hnodup : d.published.Nodup := by
    have houtbox := (eventIds_nodup (h₀.trans hrun)).of_map
    rw [h.outbox_eq] at houtbox
    exact houtbox.of_append_left
  refine (List.perm_ext_iff_of_nodup hH.distinct hnodup).mpr fun o => ⟨fun ho => hH.published ho,
    fun ho => ?_⟩
  rcases hH.delivered _ (hall o (List.mem_append_left _ ho)) with ⟨o', ho', heq⟩ | ⟨p, -, heq⟩
  · exact eq_of_eventId h (hH.published ho') ho (congrArg EventEnvelope.eventId heq) ▸ ho'
  · exact absurd heq (ne_named h hversion ho p.1.name)

/-- Once everything is delivered, the entities are those that runs have inserted rows for. -/
theorem mem_iff_covered (hH : Held uuid5 d L D) (h : DeploymentRun sha256 uuid5 c₀ ok d)
    (hnamed : Named uuid5 d.wallet.shared.db) (hall : d.AllDelivered) {x : Entity}
    (hx : x ∈ d.wallet.shared.db.entities) :
    x ∈ D.map (·.1) ↔ Covered uuid5 d.runs.shared.inserted x := by
  constructor
  · intro hD
    obtain ⟨p, hp, rfl⟩ := List.mem_map.mp hD
    exact hH.covered p hp
  · rintro ⟨id, t, hrow⟩
    rcases hH.delivered _ (hall _ (List.mem_append_right _ hrow)) with ⟨o, ho, heq⟩ | ⟨p, hp, heq⟩
    · exact absurd (congrArg EventEnvelope.eventId heq)
        (ne_named h hnamed.version (hH.published ho) x.name)
    · have hsame : x = p.1 :=
        hnamed.distinguished _ _ hx (hH.known p hp) (UUID.str_injective heq)
      exact hsame ▸ List.mem_map_of_mem hp

/-- The legs that the read model shows. -/
theorem legs_perm (hH : Held uuid5 d L D) :
    (((d.table.filter (·.ofMovement)).map (·.leg)).map (·.line)).Perm
      (L.flatMap (·.payload.legs) ++ ((D.map (·.1)).flatMap Entity.legs).map (·.line)) := by
  have hlegs := (hH.contents.filter (·.ofMovement)).map (·.leg)
  have htable : ((d.table.map (·.line)).filter (·.ofMovement)).map (·.leg) =
      ((d.table.filter (·.ofMovement)).map (·.leg)).map (·.line) := by
    rw [List.filter_map, List.map_map, List.map_map]
    rfl
  have hevents (V : List EventEnvelope) : ((V.flatMap (·.lines)).filter (·.ofMovement)).map
    (·.leg) =
      V.flatMap (·.legs) := by
    rw [List.filter_flatMap, List.map_flatMap]
    rfl
  rw [htable, hevents, processedEvents, List.flatMap_append, List.flatMap_map,
    List.flatMap_map] at hlegs
  refine hlegs.trans (.of_eq ?_)
  rw [List.flatMap_map, List.map_flatMap]
  exact congrArg _ (List.flatMap_congr fun p _ => p.1.legs_event p.2)

/-- Once everything is delivered, the legs are those of the tables exactly if the entities stand for
the legs from before the deploy. -/
theorem legs_iff (hH : Held uuid5 d L D) (h : DeploymentRun sha256 uuid5 c₀ ok d)
    (hversion : ∀ name, (uuid5 name).version = 5) (hall : d.AllDelivered) :
    ((d.table.filter (·.ofMovement)).map (·.leg)).Perm d.wallet.shared.db.movementLegs ↔
      ((D.map (·.1)).flatMap Entity.legs).Perm (c₀.shared.db.entities.flatMap Entity.legs) := by
  obtain ⟨t₀, h₀, hrun⟩ := h.walletRun
  have hpublished := (hH.perm_published h hversion hall).flatMap_right (·.payload.legs)
  -- the services' events tell of what has been added to the tables since the deploy
  have hnew : d.published.flatMap (·.payload.legs) =
      (d.published.filterMap (·.payload.payload.fact?)).flatMap Fact.legs := by
    have houtbox := outbox_legs (h₀.trans hrun)
    have hfacts (rows : List OutboxRow) (hrows : ∀ o ∈ rows,
        o.payload.legs = o.payload.payload.fact?.toList.flatMap Fact.legs) :
        rows.flatMap (·.payload.legs) =
          (rows.filterMap (·.payload.payload.fact?)).flatMap Fact.legs := by
      rw [List.filterMap_eq_flatMap_toList, List.flatMap_assoc]
      exact List.flatMap_congr hrows
    exact hfacts _ fun o ho => houtbox o (mem_outbox h ho)
  have hreported : d.wallet.shared.db.reported =
      d.published.filterMap (·.payload.payload.fact?) ++ c₀.shared.db.reported := by
    rw [Database.reported, h.outbox_eq, List.filterMap_append, Database.reported]
  have htables : (d.wallet.shared.db.movementLegs.map (·.line)).Perm
      (d.published.flatMap (·.payload.legs) ++
        (c₀.shared.db.entities.flatMap Entity.legs).map (·.line)) := by
    refine (Database.facts_legs _).symm.trans ?_
    refine ((facts_reported (h₀.trans hrun)).symm.flatMap_right _).trans ?_
    rw [hreported, List.flatMap_append, hnew, Database.entities_legs]
    refine List.Perm.append_left _ ?_
    exact ((facts_reported h₀).flatMap_right _).trans (Database.facts_legs _)
  have hshown := hH.legs_perm.trans (hpublished.append_right _)
  rw [← List.map_perm_map_iff MovementLeg.line_injective,
    ← List.map_perm_map_iff (l := (D.map (·.1)).flatMap Entity.legs) MovementLeg.line_injective]
  constructor
  · intro hperm
    exact (List.perm_append_left_iff _).mp (hshown.symm.trans (hperm.trans htables))
  · intro hperm
    exact hshown.trans ((hperm.append_left _).trans htables.symm)

/-- A name is an identifier of the read model exactly if its entity moves money and is in `D`. -/
theorem shown_iff (hH : Held uuid5 d L D) (h : DeploymentRun sha256 uuid5 c₀ ok d)
    (hnamed : Named uuid5 d.wallet.shared.db) {x : Entity} (hx : x ∈ d.wallet.shared.db.entities)
    (hmoves : x.moves = true) : uuid5 x.name ∈ d.table.map (·.eventId) ↔ x ∈ D.map (·.1) := by
  constructor
  · intro hshown
    obtain ⟨r, hr, hid⟩ := List.mem_map.mp hshown
    obtain ⟨e, he, hline⟩ := List.mem_flatMap.mp (hH.contents.mem_iff.mp (List.mem_map_of_mem hr))
    have heventId := EventEnvelope.eventId_of_mem hline
    rw [TransactionActivity.line_eventId, hid] at heventId
    exact (hH.processed_entity h hnamed hx 0).mp (List.mem_map.mpr ⟨e, he, heventId.symm⟩)
  · intro hD
    obtain ⟨p, hp, rfl⟩ := List.mem_map.mp hD
    -- a movement has legs, so its event has lines
    have hlegs : (p.1.event uuid5 p.2).legs ≠ [] := by
      rw [p.1.legs_event, ne_eq, List.map_eq_nil_iff, Entity.legs_eq_nil, hmoves]
      decide
    obtain ⟨l, hl⟩ : ∃ l, l ∈ (p.1.event uuid5 p.2).lines := by
      refine List.exists_mem_of_ne_nil _ fun hnil => hlegs ?_
      rw [EventEnvelope.legs, hnil]
      rfl
    have hmem : p.1.event uuid5 p.2 ∈ processedEvents uuid5 L D :=
      List.mem_append_right _ (List.mem_map.mpr ⟨p, hp, rfl⟩)
    obtain ⟨r, hr, rfl⟩ := List.mem_map.mp
      (hH.contents.mem_iff.mpr (List.mem_flatMap.mpr ⟨_, hmem, hl⟩))
    have hevent : (p.1.event uuid5 p.2).eventId = (uuid5 p.1.name).str := rfl
    have heventId := EventEnvelope.eventId_of_mem hl
    rw [TransactionActivity.line_eventId, hevent] at heventId
    have hid : r.eventId = uuid5 p.1.name := UUID.str_injective heventId
    exact List.mem_map.mpr ⟨r, hr, hid⟩

end Held

/-! ## Exactly once -/

/-- Among different things of which each stands for something, only all of them stand for
everything. -/
theorem perm_of_perm_flatMap {α β : Type} {f : α → List β} {xs ys : List α} (hxs : xs.Nodup)
    (hsub : xs ⊆ ys) (hne : ∀ y ∈ ys, f y ≠ []) (h : (xs.flatMap f).Perm (ys.flatMap f)) :
    xs.Perm ys := by
  obtain ⟨zs, hzs, hsublist⟩ := hxs.subperm hsub
  obtain ⟨rest, hrest⟩ := hsublist.exists_perm_append
  replace hrest : ys.Perm (xs ++ rest) := hrest.trans (hzs.append_right rest)
  have hlength := h.length_eq
  rw [(hrest.flatMap_right f).length_eq, List.flatMap_append, List.length_append] at hlength
  have hnil : rest.flatMap f = [] := List.length_eq_zero_iff.mp (by omega)
  have hempty : rest = [] := by
    refine List.eq_nil_iff_forall_not_mem.mpr fun y hy => ?_
    exact hne y (hrest.mem_iff.mpr (List.mem_append_right _ hy))
      (List.flatMap_eq_nil_iff.mp hnil y hy)
  rw [hempty, List.append_nil] at hrest
  exact hrest.symm

/-- Only entities that move money have legs. -/
theorem flatMap_legs (xs : List Entity) :
    xs.flatMap Entity.legs = (xs.filter (·.moves)).flatMap Entity.legs := by
  induction xs with
  | nil => rfl
  | cons x xs ih =>
      cases hmoves : x.moves with
      | true => rw [List.filter_cons_of_pos hmoves, List.flatMap_cons, List.flatMap_cons, ih]
      | false =>
          rw [List.filter_cons_of_neg (by rw [hmoves]; decide), List.flatMap_cons,
            Entity.legs_eq_nil.mpr hmoves, List.nil_append, ih]

/-- In every run of a deployment, once everything is delivered: each movement is counted once
exactly if the runs of the command have inserted rows for all the movements from before the deploy
and for no others. -/
theorem countedOnce_iff (h : DeploymentRun sha256 uuid5 c₀ ok d)
    (hnamed : Held.Named uuid5 d.wallet.shared.db) (hall : d.AllDelivered) :
    CountedOnce uuid5 c₀ d ↔
      (∀ x ∈ d.wallet.shared.db.entities, x.moves = true → Covered uuid5 d.runs.shared.inserted x →
        x ∈ c₀.shared.db.entities) ∧
      ∀ x ∈ c₀.shared.db.entities, x.moves = true → Covered uuid5 d.runs.shared.inserted x := by
  obtain ⟨L, D, hH⟩ := held h hnamed
  obtain ⟨t₀, h₀, hrun⟩ := h.walletRun
  have hsub := h.entities_subset
  -- once everything is delivered, the entities in the read model are the covered ones
  have hcovered {x : Entity} (hx : x ∈ d.wallet.shared.db.entities) :=
    hH.mem_iff_covered h hnamed hall hx
  have hknown {x : Entity} (hx : x ∈ D.map (·.1)) : x ∈ d.wallet.shared.db.entities := by
    obtain ⟨p, hp, rfl⟩ := List.mem_map.mp hx
    exact hH.known p hp
  -- on both sides each movement is there once
  have hxs : ((D.map (·.1)).filter (·.moves)).Nodup := hH.different.filter _
  have hys : (c₀.shared.db.entities.filter (·.moves)).Nodup :=
    (BackfillEvents.nodup_entities (backfillable h₀)).filter _
  have hlegs := hH.legs_iff h hnamed.version hall
  rw [flatMap_legs, flatMap_legs c₀.shared.db.entities] at hlegs
  constructor
  · intro hcounted
    -- a movement from after the deploy would be shown under both identifiers
    have hold : ∀ x ∈ d.wallet.shared.db.entities, x.moves = true →
        Covered uuid5 d.runs.shared.inserted x → x ∈ c₀.shared.db.entities := by
      intro x hx hmoves hcov
      by_contra hnew
      exact hcounted.once x hx hmoves hnew
        ((hH.shown_iff h hnamed hx hmoves).mpr ((hcovered hx).mpr hcov))
    refine ⟨hold, fun x hx hmoves => ?_⟩
    -- the legs of a movement determine it, so the movements are the same as well
    have hperm := perm_of_perm_flatMap hxs (fun x hx => ?_) (fun y hy => ?_)
      (hlegs.mp hcounted.legs)
    · have hmem := hperm.mem_iff.mpr (List.mem_filter.mpr ⟨hx, hmoves⟩)
      exact (hcovered (hsub hx)).mp (List.mem_filter.mp hmem).1
    · obtain ⟨hD, hmoves⟩ := List.mem_filter.mp hx
      exact List.mem_filter.mpr ⟨hold x (hknown hD) hmoves ((hcovered (hknown hD)).mp hD), hmoves⟩
    · rw [ne_eq, Entity.legs_eq_nil, (List.mem_filter.mp hy).2]
      decide
  · rintro ⟨hold, hfull⟩
    refine ⟨hlegs.mpr (List.Perm.flatMap_right _ ?_), fun x hx hmoves hnew hshown => ?_⟩
    · -- the movements in the read model are exactly those from before the deploy
      refine (List.perm_ext_iff_of_nodup hxs hys).mpr fun x => ?_
      rw [List.mem_filter, List.mem_filter]
      refine and_congr_left fun hmoves => ⟨fun hD => ?_, fun hx => ?_⟩
      · exact hold x (hknown hD) hmoves ((hcovered (hknown hD)).mp hD)
      · exact (hcovered (hsub hx)).mpr (hfull x hx hmoves)
    · have hD := (hH.shown_iff h hnamed hx hmoves).mp hshown
      exact hnew (hold x hx hmoves ((hcovered hx).mp hD))

/-- The bits of the version, once they are overwritten. -/
theorem UUID.version_overwritten (n : ℕ) :
    version ⟨BitVec.ofNat 128 (n / 2 ^ 80 * 2 ^ 80 + 5 * 2 ^ 76 + n / 2 ^ 64 % 2 ^ 12 * 2 ^ 64 +
      2 * 2 ^ 62 + n % 2 ^ 62)⟩ = 5 := by
  rw [version, BitVec.toNat_ofNat]
  omega

/-- The identifiers that `uuid5` makes are of version 5. -/
theorem UUID.version_v5 (space : UUID) (name : String) : (space.v5 name).version = 5 :=
  version_overwritten _

/-- In every run of a deployment, once everything is delivered: if the queries of the runs of the
command find no completed transfer and no seed from after the deploy, and some run comes to its end,
then each leg is shown once, and no movement under both of its events. Conversely, if that is so,
the queries of the runs that have come to their end have found none. -/
theorem counted_once_iff (h : DeploymentRun sha256 BackfillEvents.backfillNamespace.v5 c₀ anyStep d)
    (hnames : ∀ x ∈ d.wallet.shared.db.entities, ∀ y ∈ d.wallet.shared.db.entities,
      BackfillEvents.backfillNamespace.v5 x.name = BackfillEvents.backfillNamespace.v5 y.name →
        x.name = y.name)
    (hall : d.AllDelivered) :
    (DeploymentRun sha256 BackfillEvents.backfillNamespace.v5 c₀
        (SelectsOld (fun _ => True) c₀.shared.db) d → (∃ i, d.Completed i) →
      CountedOnce BackfillEvents.backfillNamespace.v5 c₀ d) ∧
    (CountedOnce BackfillEvents.backfillNamespace.v5 c₀ d →
      DeploymentRun sha256 BackfillEvents.backfillNamespace.v5 c₀
        (SelectsOld d.Completed c₀.shared.db) d) := by
  obtain ⟨t₀, h₀, hrun⟩ := h.walletRun
  have hnamed : Held.Named BackfillEvents.backfillNamespace.v5 d.wallet.shared.db :=
    { distinguished := BackfillEvents.distinguished (backfillable (h₀.trans hrun)) hnames
      version := UUID.version_v5 _ }
  rw [countedOnce_iff h hnamed hall]
  refine ⟨fun hold hdone => ⟨fun x hx hmoves hcovered => ?_, fun x hx _ => ?_⟩,
    fun hcounted => h.completed_old hcounted.1⟩
  · obtain ⟨id, t, hrow⟩ := hcovered
    obtain ⟨y, ⟨hy, hyold⟩, id', t', -, heq⟩ := hold.reported_old _ hrow
    -- one row is about one entity
    have hname := congrArg (fun row : OutboxRow => row.payload.eventId) heq
    obtain rfl : x = y := hnamed.distinguished _ _ hx hy (UUID.str_injective hname)
    exact hyold hmoves
  · obtain ⟨i, hdone⟩ := hdone
    exact h.covered hdone hx

/-! ## Explicit schedules -/

/-- Whether every event has been processed is decidable. -/
instance (d : Deployment) : Decidable d.AllDelivered :=
  inferInstanceAs (Decidable (∀ o ∈ d.events, o.payload ∈ d.delivered))

/-- Whether each movement is counted once is decidable. -/
instance (uuid5 : String → UUID) (c₀ : Wallet) (d : Deployment) :
    Decidable (CountedOnce uuid5 c₀ d) :=
  decidable_of_iff
    (((d.table.filter (·.ofMovement)).map (·.leg)).Perm d.wallet.shared.db.movementLegs ∧
      ∀ x ∈ d.wallet.shared.db.entities, x.moves = true → x ∉ c₀.shared.db.entities →
        uuid5 x.name ∉ d.table.map (·.eventId))
    ⟨fun ⟨h, h'⟩ => ⟨h, h'⟩, fun h => ⟨h.legs, h.once⟩⟩

open Deployment in
/-- The services execute a transfer between the two accounts. -/
def liveTransfer : List Move :=
  (([.spawn (.request (.transfer (transferOf ⟨false, 10, 0⟩)))] ++ steps 3 17 : Schedule)).map
    .serve

open Deployment in
/-- A run of the command goes through `n` operations. -/
def backfillRun (n : ℕ) : List Move :=
  (([.spawn 0] ++ BackfillEvents.steps 0 n 100 : List (System.Move ℕ))).map .backfill

open Deployment in
/-- The first `n` events are delivered. -/
def deliveries (n : ℕ) : List Move := (List.range n).map .consume

/-- Two accounts with a seed are there before the deploy. The backfill runs, and a transfer comes
after it. -/
theorem counted_once_iff_after :
    ∃ (c₀ : Wallet) (d : Deployment), d.table.length = 3 ∧
      CountedOnce BackfillEvents.backfillNamespace.v5 c₀ d ∧
      DeploymentRun Sha256.hexdigest BackfillEvents.backfillNamespace.v5 c₀
        (SelectsOld d.Completed c₀.shared.db) d := by
  obtain ⟨c₀, d, hd, hlen, hdone, hall, hnodup⟩ := deploymentRun_of_played
    BackfillEvents.backfillNamespace.v5 (fun c₀ => SelectsOld (fun _ => True) c₀.shared.db)
    (P := fun c₀ d => d.table.length = 3 ∧ BackfillEvents.completed (d.runs.pool 0) = true ∧
      d.AllDelivered ∧ (d.wallet.shared.db.entities.map fun x =>
        BackfillEvents.backfillNamespace.v5 x.name).Nodup)
    (show (played Unnamed twoAccountsSchedule).any (fun c₀ =>
      ((Deployment.start _ c₀).play _ _
        (backfillRun 13 ++ liveTransfer ++ deliveries 4)).any _) = true by decide +kernel)
  -- entities of one identifier are one
  have hnames : ∀ x ∈ d.wallet.shared.db.entities, ∀ y ∈ d.wallet.shared.db.entities,
      BackfillEvents.backfillNamespace.v5 x.name = BackfillEvents.backfillNamespace.v5 y.name →
        x.name = y.name :=
    fun x hx y hy hid => congrArg Entity.name (List.inj_on_of_nodup_map hnodup hx hy hid)
  obtain ⟨hcounted, hconverse⟩ := counted_once_iff hd.any hnames hall
  have honce := hcounted hd ⟨0, BackfillEvents.eq_of_completed hdone⟩
  exact ⟨c₀, d, hlen, honce, hconverse honce⟩

/-- If the transfer comes first, both of its legs are shown twice, although the guard of the command
has let the run through and the run has completed. -/
theorem counted_twice :
    ¬ ∀ (c₀ : Wallet) (d : Deployment),
      DeploymentRun Sha256.hexdigest BackfillEvents.backfillNamespace.v5 c₀ anyStep d →
      (∃ i, d.Completed i) → d.AllDelivered →
      CountedOnce BackfillEvents.backfillNamespace.v5 c₀ d := by
  intro hcounted
  obtain ⟨c₀, d, hd, hdone, hall, htwice⟩ := deploymentRun_of_played
    BackfillEvents.backfillNamespace.v5 (fun _ => anyStep)
    (P := fun c₀ d => BackfillEvents.completed (d.runs.pool 0) = true ∧ d.AllDelivered ∧
      ¬ CountedOnce BackfillEvents.backfillNamespace.v5 c₀ d)
    (show (played Unnamed twoAccountsSchedule).any (fun c₀ =>
      ((Deployment.start _ c₀).play _ _ (liveTransfer ++ backfillRun 16 ++ deliveries 5)).any _) =
        true by decide +kernel)
  exact htwice (hcounted c₀ d hd ⟨0, BackfillEvents.eq_of_completed hdone⟩ hall)

end MiniWallet

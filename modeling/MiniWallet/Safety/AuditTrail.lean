import MiniWallet.Safety.Wire

/-!
# The audit trail

The wallet together with the relay and the audit consumer. The relay publishes the rows of the
outbox to their topics, and the consumer processes the messages of the topics that it subscribes to,
in any order and any number of times.

* `AuditTrail.Settled`: every row is published, and every message of a subscribed topic is
  processed.
* `AuditTrail.Complete`: the table holds exactly one row for each event, and the row keeps the
  event.
* `AuditedCommit`: the condition that a transaction publishes only to topics of the consumer.
* `audit_complete_iff`: once it is settled, the trail is complete exactly if every event of the
  outbox is on a topic of the consumer.
* `deposits_not_audited`: the events of deposits and withdrawals are not.
-/

namespace MiniWallet

open Numeric Process System State
open Python (loads)

variable {sha256 : String → String} {limit : ℕ} {t₀ : Time} {ok : State → Event → Prop} {c : Wallet}

/-- The wallet together with the topics and the audit trail. -/
structure AuditTrail where
  wallet : Wallet
  /-- The messages of the topics, each as the row of the outbox that it was made of. -/
  published : List OutboxRow
  /-- The messages that the consumer has processed. -/
  processed : List OutboxRow
  /-- The table `audit_events`. -/
  table : AuditConsumer.Table

/-- The outbox of the wallet. -/
abbrev AuditTrail.outbox (p : AuditTrail) : List OutboxRow := p.wallet.shared.db.outbox

/-- `TrailRun sha256 limit t₀ ok p`: the trail gets from the migrated database to `p`, by any
interleaving of the wallet, the relay and the consumer, in which the steps of the wallet all satisfy
`ok`. Documents may be nested as deep as `limit`. -/
inductive TrailRun (sha256 : String → String) (limit : ℕ) (t₀ : Time) (ok : State → Event → Prop) :
    AuditTrail → Prop
  | start : TrailRun sha256 limit t₀ ok ⟨(wallet sha256).initial (.initial t₀), [], [], []⟩
  | wallet {p : AuditTrail} {l : Event} {c' : Wallet} : TrailRun sha256 limit t₀ ok p →
      ok p.wallet.toWorld l → (wallet sha256).Step p.wallet l c' →
      TrailRun sha256 limit t₀ ok { p with wallet := c' }
  /-- The relay publishes a row, for the first time or again. -/
  | published {p : AuditTrail} {o : OutboxRow} : TrailRun sha256 limit t₀ ok p → o ∈ p.outbox →
      TrailRun sha256 limit t₀ ok { p with published := o :: p.published }
  /-- The consumer processes a message of its topics, for the first time or again. -/
  | processed {p : AuditTrail} {o : OutboxRow} {event : Python.JsonValue}
      {table : AuditConsumer.Table} : TrailRun sha256 limit t₀ ok p → o ∈ p.published →
      o.topic ∈ AuditConsumer.topics → loads limit (some o.payload.message) = .ok event →
      AuditConsumer.process p.table event = .ok table →
      TrailRun sha256 limit t₀ ok { p with processed := o :: p.processed, table := table }

namespace AuditTrail

/-- Every row of the outbox is published, and the consumer has processed every message of its
topics. -/
structure Settled (p : AuditTrail) : Prop where
  published : ∀ o ∈ p.outbox, o ∈ p.published
  processed : ∀ o ∈ p.published, o.topic ∈ AuditConsumer.topics → o ∈ p.processed

/-- The table holds exactly one row for each event of the outbox, which keeps the whole event, and
no other rows. -/
structure Complete (p : AuditTrail) : Prop where
  recorded : ∀ o ∈ p.outbox, ∃ row, row.Records o.payload ∧
    p.table.filter (fun r => r.eventId.str = o.payload.eventId) = [row]
  only : ∀ row ∈ p.table, ∃ o ∈ p.outbox, row.Records o.payload

/-- The invariant of the trail: the table holds one row for each event that has been processed. -/
structure Kept (p : AuditTrail) : Prop where
  published : ∀ o ∈ p.published, o ∈ p.outbox
  processed : ∀ o ∈ p.processed, o ∈ p.published ∧ o.topic ∈ AuditConsumer.topics
  recorded : ∀ o ∈ p.processed, ∃ row ∈ p.table, row.Records o.payload
  only : ∀ row ∈ p.table, ∃ o ∈ p.processed, row.Records o.payload
  distinct : (p.table.map (·.eventId)).Nodup

variable {p : AuditTrail}

/-- What the wallet does in the trail is a run of the wallet. -/
theorem walletRun (h : TrailRun sha256 limit t₀ ok p) : WalletRun sha256 t₀ ok p.wallet := by
  induction h with
  | start => exact .refl
  | wallet _ hl hs ih => exact .step ih hl hs
  | published _ _ ih => exact ih
  | processed _ _ _ _ _ ih => exact ih

/-- A run of the trail under a condition is one under every weaker condition. -/
theorem runMono {ok' : State → Event → Prop} (hok : ∀ w l, ok w l → ok' w l)
    (h : TrailRun sha256 limit t₀ ok p) : TrailRun sha256 limit t₀ ok' p := by
  induction h with
  | start => exact .start
  | wallet _ hl hs ih => exact .wallet ih (hok _ _ hl) hs
  | published _ ho ih => exact .published ih ho
  | processed _ ho htopic hloads hprocess ih => exact .processed ih ho htopic hloads hprocess

/-- Events that the same row keeps are equal. -/
theorem eq_of_records (h : TrailRun sha256 limit t₀ ok p) {o o' : OutboxRow} (ho : o ∈ p.outbox)
    (ho' : o' ∈ p.outbox) {row row' : AuditEvent} (hrow : row.Records o.payload)
    (hrow' : row'.Records o'.payload) (hid : row.eventId = row'.eventId) : o = o' := by
  refine List.inj_on_of_nodup_map (eventIds_nodup (walletRun h)) ho ho' ?_
  rw [hrow.eventId, hrow'.eventId, hid]

/-- A row of the table is the only one with its identifier. -/
theorem Kept.filter_eq (hp : p.Kept) {row : AuditEvent} (hrow : row ∈ p.table) :
    p.table.filter (fun r => r.eventId.str = row.eventId.str) = [row] := by
  have hnodup : p.table.Nodup := hp.distinct.of_map
  refine List.perm_singleton.mp ?_
  rw [List.perm_ext_iff_of_nodup (hnodup.filter _) (List.nodup_singleton row)]
  intro r
  rw [List.mem_filter, List.mem_singleton, decide_eq_true_eq]
  constructor
  · rintro ⟨hr, hid⟩
    exact List.inj_on_of_nodup_map hp.distinct hr hrow (UUID.str_injective hid)
  · rintro rfl
    exact ⟨hrow, rfl⟩

/-- A run of the wallet is one of the trail, in which nothing is published. -/
theorem trailRun_of_walletRun (h : WalletRun sha256 t₀ ok c) :
    TrailRun sha256 limit t₀ ok ⟨c, [], [], []⟩ := by
  induction h with
  | refl => exact .start
  | step _ hl hs ih => exact .wallet ih hl hs

/-- The relay can publish any rows of the outbox. -/
theorem publish_all (h : TrailRun sha256 limit t₀ ok p) {rows : List OutboxRow}
    (hrows : ∀ o ∈ rows, o ∈ p.outbox) :
    TrailRun sha256 limit t₀ ok { p with published := rows ++ p.published } := by
  induction rows with
  | nil => exact h
  | cons o rows ih =>
      obtain ⟨ho, hrows⟩ := List.forall_mem_cons.mp hrows
      exact .published (ih hrows) ho

section Range

variable (hrange : ∀ w l, ok w l → ClockInRange w l) (hlimit : 2 ≤ limit)

include hrange hlimit

/-- Processing a message keeps its event once, and never raises. -/
theorem process_published (h : TrailRun sha256 limit t₀ ok p) {o : OutboxRow} (ho : o ∈ p.outbox) :
    ∃ event, loads limit (some o.payload.message) = .ok event ∧
      ∃ row : AuditEvent, row.Records o.payload ∧ ∀ table, AuditConsumer.process table event =
        .ok (if row.eventId ∈ table.map (·.eventId) then table else row :: table) := by
  obtain ⟨event, hloads, hdecodes⟩ := o.payload.decoded_message hlimit
  have haudit := outbox_auditable ((walletRun h).mono hrange) o ho
  exact ⟨event, hloads, AuditConsumer.process_auditable haudit hdecodes⟩

/-- Processing a message keeps the invariant. -/
theorem Kept.process (h : TrailRun sha256 limit t₀ ok p) (hp : p.Kept) {o : OutboxRow}
    {event : Python.JsonValue} {table : AuditConsumer.Table} (ho : o ∈ p.published)
    (htopic : o.topic ∈ AuditConsumer.topics)
    (hloads : loads limit (some o.payload.message) = .ok event)
    (hprocess : AuditConsumer.process p.table event = .ok table) :
    Kept { p with processed := o :: p.processed, table := table } := by
  have hout := hp.published o ho
  obtain ⟨event', hloads', row, hrow, hspec⟩ := process_published hrange hlimit h hout
  rw [hloads] at hloads'
  cases hloads'
  rw [hspec] at hprocess
  cases hprocess
  have hprocessed : ∀ x ∈ o :: p.processed, x ∈ p.published ∧ x.topic ∈ AuditConsumer.topics :=
    List.forall_mem_cons.mpr ⟨⟨ho, htopic⟩, hp.processed⟩
  have honly : ∀ r ∈ p.table, ∃ x ∈ o :: p.processed, r.Records x.payload := fun r hr =>
    (hp.only r hr).imp fun x hx => ⟨List.mem_cons_of_mem _ hx.1, hx.2⟩
  by_cases hknown : row.eventId ∈ p.table.map (·.eventId)
  · -- the row with this identifier keeps the same event
    simp only [if_pos hknown]
    obtain ⟨row', hrow', hid⟩ := List.mem_map.mp hknown
    obtain ⟨o', ho', hrecords⟩ := hp.only row' hrow'
    have hsame := eq_of_records h (hp.published o' (hp.processed o' ho').1) hout hrecords hrow hid
    exact ⟨hp.published, hprocessed,
      List.forall_mem_cons.mpr ⟨⟨row', hrow', hsame ▸ hrecords⟩, hp.recorded⟩, honly, hp.distinct⟩
  · simp only [if_neg hknown]
    refine ⟨hp.published, hprocessed, List.forall_mem_cons.mpr ⟨⟨row, by simp, hrow⟩, ?_⟩,
      List.forall_mem_cons.mpr ⟨⟨o, by simp, hrow⟩, honly⟩,
        List.nodup_cons.mpr ⟨hknown, hp.distinct⟩⟩
    exact fun x hx => (hp.recorded x hx).imp fun r hr => ⟨List.mem_cons_of_mem _ hr.1, hr.2⟩

/-- In every run of the trail the table holds one row for each event that has been processed. -/
theorem kept (h : TrailRun sha256 limit t₀ ok p) : p.Kept := by
  induction h with
  | start =>
      exact ⟨fun o ho => (nomatch ho), fun o ho => (nomatch ho), fun o ho => (nomatch ho),
        fun o ho => (nomatch ho), .nil⟩
  | wallet hrun hl hs ih =>
      have hgrow := outbox_suffix (walletRun hrun) (.step .refl hl hs)
      exact { ih with published := fun o ho => hgrow.subset (ih.published o ho) }
  | published _ ho ih =>
      exact { ih with
        published := List.forall_mem_cons.mpr ⟨ho, ih.published⟩
        processed := fun x hx => ⟨List.mem_cons_of_mem _ (ih.processed x hx).1,
          (ih.processed x hx).2⟩ }
  | processed hrun ho htopic hloads hprocess ih =>
      exact ih.process hrange hlimit hrun ho htopic hloads hprocess

/-- Once the trail is settled, it is complete exactly if every event of the outbox is on a topic of
the consumer. -/
theorem complete_iff (h : TrailRun sha256 limit t₀ ok p) (hsettled : p.Settled) :
    p.Complete ↔ ∀ o ∈ p.outbox, o.topic ∈ AuditConsumer.topics := by
  have hp := kept hrange hlimit h
  constructor
  · intro hcomplete o ho
    -- the row of the event was made of a message of the consumer's topics
    obtain ⟨row, hrecords, hfilter⟩ := hcomplete.recorded o ho
    have hrow : row ∈ p.table := List.mem_of_mem_filter (hfilter ▸ List.mem_singleton_self row)
    obtain ⟨o', ho', hrecords'⟩ := hp.only row hrow
    obtain ⟨hpublished, htopic⟩ := hp.processed o' ho'
    have hsame := eq_of_records h (hp.published o' hpublished) ho hrecords' hrecords rfl
    exact hsame ▸ htopic
  · intro htopics
    refine ⟨fun o ho => ?_, fun row hrow => ?_⟩
    · have hprocessed := hsettled.processed o (hsettled.published o ho) (htopics o ho)
      obtain ⟨row, hrow, hrecords⟩ := hp.recorded o hprocessed
      exact ⟨row, hrecords, hrecords.eventId ▸ hp.filter_eq hrow⟩
    · obtain ⟨o, ho, hrecords⟩ := hp.only row hrow
      exact ⟨o, hp.published o (hp.processed o ho).1, hrecords⟩

/-! ## Settling -/

/-- The consumer can process any messages of its topics. -/
theorem process_all (h : TrailRun sha256 limit t₀ ok p) {rows : List OutboxRow}
    (hrows : ∀ o ∈ rows, o ∈ p.published ∧ o.topic ∈ AuditConsumer.topics) :
    ∃ table, TrailRun sha256 limit t₀ ok
      { p with processed := rows ++ p.processed, table := table } := by
  induction rows with
  | nil => exact ⟨p.table, h⟩
  | cons o rows ih =>
      obtain ⟨⟨ho, htopic⟩, hrows⟩ := List.forall_mem_cons.mp hrows
      obtain ⟨table, hrun⟩ := ih hrows
      have hout := (kept hrange hlimit h).published o ho
      obtain ⟨event, hloads, row, -, hspec⟩ := process_published hrange hlimit hrun hout
      exact ⟨_, .processed hrun ho htopic hloads (hspec table)⟩

/-- After every run of the wallet, the trail can be settled. -/
theorem exists_settled (h : WalletRun sha256 t₀ ok c) :
    ∃ p, TrailRun sha256 limit t₀ ok p ∧ p.wallet = c ∧ p.Settled := by
  let outbox := c.shared.db.outbox
  have hstart : TrailRun sha256 limit t₀ ok ⟨c, [], [], []⟩ := trailRun_of_walletRun h
  have hpublished : TrailRun sha256 limit t₀ ok ⟨c, outbox ++ [], [], []⟩ :=
    publish_all hstart fun o ho => ho
  have haudited : ∀ o ∈ outbox.filter (·.topic ∈ AuditConsumer.topics),
      o ∈ outbox ++ [] ∧ o.topic ∈ AuditConsumer.topics := by
    intro o ho
    simpa using ho
  obtain ⟨table, hrun⟩ := process_all hrange hlimit hpublished haudited
  refine ⟨_, hrun, rfl, fun o ho => List.mem_append_left _ ho, fun o ho htopic => ?_⟩
  simp only [List.append_nil] at ho ⊢
  exact List.mem_filter.mpr ⟨ho, decide_eq_true htopic⟩

end Range

end AuditTrail

/-! ## Which events are audited -/

/-- A transaction that is committed publishes only to topics of the audit consumer. -/
def AuditedCommit (w : State) (l : Event) : Prop :=
  ∀ i, l = .call i .commit (.ok ()) →
    ∀ o, .insert (.outbox o) ∈ (w.sess i).writes → o.topic ∈ AuditConsumer.topics

/-- If every commit is audited, every event of the outbox is on a topic of the consumer. -/
theorem audited_outbox (hok : ∀ w l, ok w l → AuditedCommit w l) (h : WalletRun sha256 t₀ ok c) :
    ∀ o ∈ c.shared.db.outbox, o.topic ∈ AuditConsumer.topics := by
  refine database_invariant (P := fun db => ∀ o ∈ db.outbox, o.topic ∈ AuditConsumer.topics)
    (fun o ho => nomatch ho) ?_ h
  intro c i T hT hP o ho
  rw [Database.outbox_post, List.mem_append] at ho
  rcases ho with ho | ho
  · refine hok _ _ hT.allowed i rfl o ?_
    rw [hT.writes]
    exact Transaction.insert_event ho
  · exact hP o ho

/-- In every run of the wallet, the relay and the audit consumer under the condition on the clock,
whatever the order and the duplicates: once every row of the outbox is published and every message
of the consumer's topics is processed, the audit trail is complete if every commit of the run was
audited, and it is complete exactly if every event of the outbox is on a topic of the consumer. -/
theorem audit_complete_iff {p : AuditTrail} (hlimit : 2 ≤ limit)
    (hrange : ∀ w l, ok w l → ClockInRange w l) (h : ∃ t₀, TrailRun sha256 limit t₀ ok p)
    (hsettled : p.Settled) :
    ((∀ w l, ok w l → AuditedCommit w l) → p.Complete) ∧
      (p.Complete ↔ ∀ o ∈ p.outbox, o.topic ∈ AuditConsumer.topics) := by
  obtain ⟨t₀, h⟩ := h
  have hiff := AuditTrail.complete_iff hrange hlimit h hsettled
  exact ⟨fun hok => hiff.mpr (audited_outbox hok (AuditTrail.walletRun h)), hiff⟩

/-- The events of two new accounts, a seed and a transfer are all audited. -/
theorem audit_complete_iff_transferred :
    ∃ p : AuditTrail, (∃ t₀, TrailRun Sha256.hexdigest 1000 t₀ ClockInRange p) ∧ p.Settled ∧
      p.outbox.length = 4 ∧ p.Complete := by
  obtain ⟨c, ⟨t₀, hc⟩, hlen, htopics⟩ := reachesUnder_of_played
    (P := fun c => c.shared.db.outbox.length = 4 ∧
      ∀ o ∈ c.shared.db.outbox, o.topic ∈ AuditConsumer.topics)
    (show (played ClockInRange (transferredSchedule ⟨false, 10, 0⟩)).any _ = true
      by decide +kernel)
  obtain ⟨p, hp, rfl, hsettled⟩ :=
    AuditTrail.exists_settled (fun _ _ h => h) (by decide : 2 ≤ 1000) hc
  have hiff := audit_complete_iff (by decide) (fun _ _ h => h) ⟨t₀, hp⟩ hsettled
  exact ⟨p, ⟨t₀, hp⟩, hsettled, hlen, hiff.2.mpr htopics⟩

/-- A user opens an account, which gets the identifier `1`, and the webhook reports a deposit of 10
dollars to it. -/
def depositedSchedule : Schedule :=
  [.spawn (.request (.openAccount ⟨1000⟩))] ++ steps 0 9 ++
    [.spawn (.request (.simulateDeposit
      { accountId := ⟨1⟩
        amount := ⟨false, 10, 0⟩
        currency := "USD"
        sourceType := "bank_transfer"
        externalReference := "ref" }))] ++ steps 1 15

/-- The events of deposits are not on a topic of the consumer, so the trail is not complete after
every run. -/
theorem deposits_not_audited :
    ¬ ∀ p : AuditTrail, (∃ t₀, TrailRun Sha256.hexdigest 1000 t₀ anyStep p) → p.Settled →
      p.Complete := by
  intro hall
  obtain ⟨c, ⟨t₀, hc⟩, htopic⟩ := reachesUnder_of_played
    (P := fun c => ∃ o ∈ c.shared.db.outbox, o.topic ∉ AuditConsumer.topics)
    (show (played ClockInRange depositedSchedule).any _ = true by decide +kernel)
  obtain ⟨p, hp, rfl, hsettled⟩ :=
    AuditTrail.exists_settled (fun _ _ h => h) (by decide : 2 ≤ 1000) hc
  obtain ⟨o, ho, hnot⟩ := htopic
  have hiff := AuditTrail.complete_iff (fun _ _ h => h) (by decide) hp hsettled
  exact hnot (hiff.mp (hall p ⟨t₀, AuditTrail.runMono (fun _ _ _ => trivial) hp⟩ hsettled) o ho)

end MiniWallet

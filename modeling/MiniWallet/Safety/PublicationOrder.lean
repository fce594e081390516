import MiniWallet.Safety.Batches
import MiniWallet.Safety.Delivery

/-!
# The order of publication

A single relay claims the oldest rows first and sends a batch in order, so Kafka sees the events of
a topic in the order in which they were committed, as long as sending succeeds. A row whose sending
failed returns to the table, and the rows behind it in the batch are sent all the same. The order is
kept when all of them fail too.

* `datedRelay`, `Single`: one relay, while services commit rows with later and later dates.
* `Unbroken`: a message is not accepted after an older one of the same topic has gone back.
* `Ordered`, `ordered`: the invariant, about the rows that can still be sent.
* `published_in_order`: the guarantee for every run, and `published_out_of_order`, a run in which a
  younger event overtakes an older one.
-/

namespace MiniWallet

open Process System OutboxRelay

namespace OutboxRelay

/-! ## One relay -/

/-- A service commits an event whose date is later than that of every event before. -/
def InsertsLater (created : UUID → Time) (s s' : Shared) : Prop :=
  ∃ row : OutboxRow, row.id ∉ s.committed.map (·.id) ∧
    (∀ earlier ∈ s.committed, created earlier.id < created row.id) ∧
    s' = { s with
      table := s.table ++ [{ toOutboxRow := row, createdAt := created row.id }]
      committed := row :: s.committed }

/-- The table holds pending rows with different dates, and nothing else has been committed. -/
structure Backlog (created : UUID → Time) (s : Shared) : Prop where
  pending : ∀ row ∈ s.table, row.status = .pending
  ids : (s.table.map (·.id)).Nodup
  dated : ∀ row ∈ s.table, row.createdAt = created row.id
  dates : (s.table.map (·.createdAt)).Nodup
  committed : s.committed = s.table.map (·.toOutboxRow)

/-- The rows are the oldest pending rows, as many as the limit allows. -/
def Oldest (table rows : OutboxTable) : Prop :=
  ∀ row ∈ table, row.status = .pending → row.id ∉ rows.map (·.id) →
    rows.length = batchSize ∧ ∀ r ∈ rows, r.createdAt ≤ row.createdAt

/-- Whether rows are the oldest pending ones of a table is decidable. -/
instance decidableOldest (table rows : OutboxTable) : Decidable (Oldest table rows) := by
  unfold Oldest
  infer_instance

/-- There is one relay, which does not crash. Sending fails only with `KafkaError`, and since no
other transaction locks rows, a claim skips none. -/
def Single (_ : Tally) (w : World Shared Session) : Label Op Op.Out Exc → Prop
  | .spawn => w.size = 0
  | .stop _ => False
  | .call _ .claim (.ok rows) => Oldest w.shared.table rows
  | .call _ (.sendAndWait _) (.error e) => e = .kafkaError
  | .call _ _ (.error _) => False
  | _ => True

/-- Whether a step is one of a single relay is decidable. -/
instance (g : Tally) (w : World Shared Session) (l : Label Op Op.Out Exc) :
    Decidable (Single g w l) :=
  match l with
  | .spawn => inferInstanceAs (Decidable (w.size = 0))
  | .call _ .claim (.ok rows) => decidableOldest w.shared.table rows
  | .call _ (.sendAndWait _) (.error e) => inferInstanceAs (Decidable (e = .kafkaError))
  | .stop _ | .call _ .monotonic (.error _) | .call _ .now (.error _)
  | .call _ (.sleep _) (.error _) | .call _ .claim (.error _) | .call _ (.confirm _) (.error _)
  | .call _ (.recoverStuckRows _) (.error _) | .call _ (.cleanupPublishedRows _ _) (.error _) =>
      inferInstanceAs (Decidable False)
  | .env | .call _ .monotonic (.ok _) | .call _ .now (.ok _) | .call _ (.sleep _) (.ok _)
  | .call _ (.confirm _) (.ok _) | .call _ (.recoverStuckRows _) (.ok _)
  | .call _ (.cleanupPublishedRows _ _) (.ok _) | .call _ (.sendAndWait _) (.ok _) =>
      inferInstanceAs (Decidable True)

/-- Kafka does not accept a message if a message of the same topic has failed in the same batch, and
its row goes back to `pending`. -/
def Unbroken (g : Tally) (_ : World Shared Session) : Label Op Op.Out Exc → Prop
  | .call i (.sendAndWait message) (.ok _) =>
      ∀ p ∈ (g.work i).sent, p.2 = false → (sendFailed p.1).status = .pending →
        p.1.topic ≠ message.topic
  | _ => True

/-- Whether a step leaves the order of a batch unbroken is decidable. -/
instance (g : Tally) (w : World Shared Session) (l : Label Op Op.Out Exc) :
    Decidable (Unbroken g w l) :=
  match l with
  | .call i (.sendAndWait message) (.ok _) =>
      inferInstanceAs (Decidable (∀ p ∈ (g.work i).sent, p.2 = false →
        (sendFailed p.1).status = .pending → p.1.topic ≠ message.topic))
  | .spawn | .stop _ | .env | .call _ .monotonic _ | .call _ .now _ | .call _ (.sleep _) _
  | .call _ .claim _ | .call _ (.confirm _) _ | .call _ (.recoverStuckRows _) _
  | .call _ (.cleanupPublishedRows _ _) _ | .call _ (.sendAndWait _) (.error _) =>
      inferInstanceAs (Decidable True)

end OutboxRelay

/-- The relay, while services commit events with the dates `created`. -/
def datedRelay (created : UUID → Time) :
    System OutboxRelay.Op OutboxRelay.Op.Out OutboxRelay.Exc Unit
    OutboxRelay.Shared OutboxRelay.Session :=
  { relay with env := OutboxRelay.InsertsLater created }

namespace OutboxRelay

/-- The rows of a topic, with their dates, in the order in which Kafka first acknowledged them. -/
def firstAcked (sends : List (QueuedRow × Bool)) (topic : String) : List (UUID × Time) :=
  (((sends.filter fun p => p.2 && p.1.topic = topic).map
    fun p => (p.1.id, p.1.createdAt)).dedup).reverse

/-- In every topic the rows were first acknowledged in the order of their dates. -/
def InCreatedOrder (sends : List (QueuedRow × Bool)) : Prop :=
  ∀ topic, (firstAcked sends topic).Pairwise fun a b => a.2 < b.2

/-! ## The rows that can still be sent -/

/-- The row waits to be sent: it is pending, or it is in the batch and its turn has not been, or it
has failed and will be pending again. -/
inductive Open (w : Work) (table : OutboxTable) : QueuedRow → Prop
  | pending {row : QueuedRow} : row ∈ table → row.status = .pending → Open w table row
  | todo {row : QueuedRow} : row ∈ w.todo → Open w table row
  | failed {row : QueuedRow} : (row, false) ∈ w.sent → (sendFailed row).status = .pending →
      Open w table row

/-- The invariant of a single relay: no row that can still be sent is older than one that Kafka has
acknowledged for its topic. -/
structure Ordered (created : UUID → Time) (w : Work) (sends : List (QueuedRow × Bool))
    (s : Shared) :
    Prop where
  /-- Different events have different dates. -/
  dates : ∀ a ∈ s.committed, ∀ b ∈ s.committed, created a.id = created b.id → a.id = b.id
  dated : ∀ row ∈ s.table, row.createdAt = created row.id
  /-- A row that is being published is in the batch. -/
  publishing : ∀ row ∈ s.table, row.status = .publishing → row.id ∈ w.rows.map (·.id)
  /-- The rest of the batch is in order, -/
  sorted : w.todo.Pairwise fun a b => a.createdAt < b.createdAt
  /-- and it is older than what was not claimed. -/
  oldest : ∀ r ∈ w.todo, ∀ row ∈ s.table, row.status = .pending → r.createdAt < row.createdAt
  sent : ∀ p ∈ sends, p.1.id ∈ s.committed.map (·.id) ∧ p.1.createdAt = created p.1.id
  /-- The acknowledgements so far are in order, -/
  acked : sends.Pairwise fun later earlier => later.2 = true → earlier.2 = true →
    earlier.1.topic = later.1.topic → earlier.1.createdAt < later.1.createdAt
  /-- and older than what can still be sent. -/
  ahead : ∀ p ∈ sends, p.2 = true → ∀ row, Open w s.table row → p.1.topic = row.topic →
    p.1.createdAt < row.createdAt

namespace Ordered

variable {created : UUID → Time} {work : ℕ → Work} {w : Work} {sends : List (QueuedRow × Bool)}
  {cleaned : List QueuedRow} {s : Shared}

/-- Sending the head of the batch fails. -/
theorem refused (h : Ordered created w sends s) {row : QueuedRow} {rest : List QueuedRow}
    (htodo : w.todo = row :: rest) (hrow : row ∈ s.table)
    (hknown : row.id ∈ s.committed.map (·.id)) :
    Ordered created ⟨rest, (row, false) :: w.sent⟩ ((row, false) :: sends) s := by
  obtain ⟨todo, sent⟩ := w
  obtain rfl : todo = row :: rest := htodo
  -- the row stays open, now as one that has failed
  have hopen : ∀ r, Open ⟨rest, (row, false) :: sent⟩ s.table r →
    Open ⟨row :: rest, sent⟩ s.table r := by
    intro r hr
    cases hr with
    | pending hmem hstatus => exact .pending hmem hstatus
    | todo hmem => exact .todo (List.mem_cons_of_mem _ hmem)
    | failed hmem hstatus =>
        rcases List.mem_cons.mp hmem with heq | hmem
        · cases heq
          exact .todo List.mem_cons_self
        · exact .failed hmem hstatus
  refine ⟨h.dates, h.dated, fun r hr hstatus => ?_, (List.pairwise_cons.mp h.sorted).2,
    fun r hr => h.oldest r (List.mem_cons_of_mem _ hr), fun p hp => ?_, ?_,
      fun p hp hacked r hr => ?_⟩
  · have := h.publishing r hr hstatus
    simp only [Work.rows, List.map_append, List.map_cons, List.mem_append, List.mem_cons] at this ⊢
    tauto
  · rcases List.mem_cons.mp hp with rfl | hp
    · -- the row was in the table when it was sent
      exact ⟨hknown, h.dated row hrow⟩
    · exact h.sent p hp
  · -- nothing is added to what was acknowledged
    exact List.pairwise_cons.mpr ⟨by rintro _ _ ⟨⟩, h.acked⟩
  · rcases List.mem_cons.mp hp with rfl | hp
    · cases hacked
    · exact h.ahead p hp hacked r (hopen r hr)

/-- Kafka acknowledges the head of the batch. -/
theorem accepted (h : Ordered created w sends s) {row : QueuedRow} {rest : List QueuedRow}
    (htodo : w.todo = row :: rest) (hrow : row ∈ s.table) (hknown : row.id ∈ s.committed.map (·.id))
    (hunbroken : ∀ p ∈ w.sent, p.2 = false → (sendFailed p.1).status = .pending →
      p.1.topic ≠ row.topic) :
    Ordered created ⟨rest, (row, true) :: w.sent⟩ ((row, true) :: sends) s := by
  obtain ⟨todo, sent⟩ := w
  obtain rfl : todo = row :: rest := htodo
  have hopen : ∀ r, Open ⟨rest, (row, true) :: sent⟩ s.table r →
    Open ⟨row :: rest, sent⟩ s.table r := by
    intro r hr
    cases hr with
    | pending hmem hstatus => exact .pending hmem hstatus
    | todo hmem => exact .todo (List.mem_cons_of_mem _ hmem)
    | failed hmem hstatus =>
        rcases List.mem_cons.mp hmem with heq | hmem
        · cases heq
        · exact .failed hmem hstatus
  refine ⟨h.dates, h.dated, fun r hr hstatus => ?_, (List.pairwise_cons.mp h.sorted).2,
    fun r hr => h.oldest r (List.mem_cons_of_mem _ hr), fun p hp => ?_, ?_,
    fun p hp hacked r hr htopic => ?_⟩
  · have := h.publishing r hr hstatus
    simp only [Work.rows, List.map_append, List.map_cons, List.mem_append, List.mem_cons] at this ⊢
    tauto
  · rcases List.mem_cons.mp hp with rfl | hp
    · exact ⟨hknown, h.dated row hrow⟩
    · exact h.sent p hp
  · refine List.pairwise_cons.mpr ⟨fun p hp _ hacked htopic => ?_, h.acked⟩
    exact h.ahead p hp hacked row (.todo List.mem_cons_self) htopic
  · rcases List.mem_cons.mp hp with rfl | hp
    · -- the row is older than everything of its topic that can still be sent
      cases hr with
      | pending hmem hstatus => exact h.oldest row List.mem_cons_self r hmem hstatus
      | todo hmem => exact (List.pairwise_cons.mp h.sorted).1 r hmem
      | failed hmem hstatus =>
          rcases List.mem_cons.mp hmem with heq | hmem
          · cases heq
          · exact absurd htopic.symm (hunbroken _ hmem rfl hstatus)
    · exact h.ahead p hp hacked r (hopen r hr) htopic

/-- The relay claims the oldest pending rows. -/
theorem claim (h : Ordered created {} sends s)
    (hknown : ∀ row ∈ s.table, row.id ∈ s.committed.map (·.id)) {rows : List QueuedRow} {limit : ℕ}
    (hrows : s.table.Claimable rows limit) (holdest : Oldest s.table rows) :
    Ordered created ⟨rows.map OutboxTable.claimed, []⟩ sends
      { s with table := s.table.claim rows } := by
  -- different rows of the table have different dates
  have hdates : ∀ a ∈ s.table, ∀ b ∈ s.table, a.id ≠ b.id → a.createdAt ≠ b.createdAt := by
    intro a ha b hb hne heq
    rw [h.dated a ha, h.dated b hb] at heq
    obtain ⟨a', ha', hida⟩ := List.mem_map.mp (hknown a ha)
    obtain ⟨b', hb', hidb⟩ := List.mem_map.mp (hknown b hb)
    rw [← hida, ← hidb] at heq hne
    exact hne (h.dates a' ha' b' hb' heq)
  have hmem : ∀ r ∈ rows, r ∈ s.table := fun r hr => (hrows.pending r hr).1
  have hopen : ∀ r, Open ⟨rows.map OutboxTable.claimed, []⟩ (s.table.claim rows) r →
      ∃ r', Open {} s.table r' ∧ r'.topic = r.topic ∧ r'.createdAt = r.createdAt := by
    intro r hr
    cases hr with
    | pending hr hstatus =>
        rcases OutboxTable.mem_claim hr with ⟨hr, -⟩ | ⟨r', -, -, rfl⟩
        · exact ⟨r, .pending hr hstatus, rfl, rfl⟩
        · cases hstatus
    | todo hr =>
        obtain ⟨r', hr', rfl⟩ := List.mem_map.mp hr
        exact ⟨r', .pending (hmem r' hr') (hrows.pending r' hr').2, rfl, rfl⟩
    | failed hr _ => exact absurd hr List.not_mem_nil
  refine ⟨h.dates, fun r hr => ?_, fun r hr hstatus => ?_, ?_, fun r hr row hrow hstatus => ?_,
    h.sent,
    h.acked, fun p hp hacked r hr htopic => ?_⟩
  · rcases OutboxTable.mem_claim hr with ⟨hr, -⟩ | ⟨r', hr', -, rfl⟩
    · exact h.dated r hr
    · exact h.dated r' hr'
  · rcases OutboxTable.mem_claim hr with ⟨hr, -⟩ | ⟨r', hr', hid, rfl⟩
    · exact absurd (h.publishing r hr hstatus) List.not_mem_nil
    · simpa [Work.rows, OutboxTable.claimed] using hid
  · rw [List.pairwise_map]
    refine (hrows.ordered.and (List.pairwise_map.mp hrows.distinct)).imp_of_mem ?_
    rintro a b ha hb ⟨hle, hne⟩
    exact lt_of_le_of_ne hle (hdates a (hmem a ha) b (hmem b hb) hne)
  · obtain ⟨r', hr', rfl⟩ := List.mem_map.mp hr
    rcases OutboxTable.mem_claim hrow with ⟨hrow, hid⟩ | ⟨row', -, -, rfl⟩
    · have hne : r'.id ≠ row.id := fun heq => hid (heq ▸ List.mem_map_of_mem hr')
      exact lt_of_le_of_ne ((holdest row hrow hstatus hid).2 r' hr')
        (hdates r' (hmem r' hr') row hrow hne)
    · cases hstatus
  · obtain ⟨r', hr', htopic', hdate⟩ := hopen r hr
    exact hdate ▸ h.ahead p hp hacked r' hr' (htopic.trans htopic'.symm)

/-- The relay confirms its batch. -/
theorem confirm (h : Ordered created w sends s) (hheld : ∀ row ∈ w.rows, row ∈ s.table)
    (hdistinct : (w.rows.map (·.id)).Nodup) {rows : List QueuedRow}
    (hguard : batches.guard (.confirm rows) w) :
    Ordered created {} sends { s with table := s.table.confirm rows } := by
  have hids : ∀ row ∈ rows, row.id ∈ s.table.map (·.id) := fun row hrow => by
    obtain ⟨held, hmem, hid⟩ := exists_held_of_confirm hguard hrow
    exact hid ▸ List.mem_map_of_mem (hheld held hmem)
  have hmem : ∀ {r}, r ∈ s.table.confirm rows ↔ r ∈ rows ∨ r ∈ s.table ∧ r.id ∉ rows.map (·.id) :=
    OutboxTable.mem_confirm hids (nodup_of_confirm hguard hdistinct)
  -- a row that is written back has the date and the topic of the row that was sent
  have hsettled : ∀ r ∈ rows, ∃ p ∈ w.sent, Settles p r ∧ p.1 ∈ s.table := fun r hr => by
    obtain ⟨p, hp, hsettles⟩ := exists_settles hguard.2 hr
    have hp := List.mem_reverse.mp hp
    exact ⟨p, hp, hsettles, hheld p.1 (List.mem_append_left _ (List.mem_map_of_mem hp))⟩
  refine ⟨h.dates, fun r hr => ?_, fun r hr hstatus => ?_, .nil,
    fun r hr => absurd hr List.not_mem_nil,
    h.sent, h.acked, fun p hp hacked r hr htopic => ?_⟩
  · rcases hmem.mp hr with hr | ⟨hr, -⟩
    · obtain ⟨p, -, hsettles, hp⟩ := hsettled r hr
      rw [hsettles.createdAt_eq, hsettles.id_eq]
      exact h.dated p.1 hp
    · exact h.dated r hr
  · rcases hmem.mp hr with hr | ⟨hr, hid⟩
    · obtain ⟨p, -, hsettles, -⟩ := hsettled r hr
      exact absurd hstatus hsettles.not_publishing
    · refine absurd ?_ hid
      rw [map_id_of_confirm hguard, List.mem_reverse]
      exact h.publishing r hr hstatus
  · cases hr with
    | pending hr hstatus =>
        rcases hmem.mp hr with hr | ⟨hr, -⟩
        · obtain ⟨⟨row, success⟩, hp', hsettles, -⟩ := hsettled r hr
          rw [hsettles.createdAt_eq]
          cases success with
          | true =>
              obtain ⟨_, rfl⟩ := hsettles
              cases hstatus
          | false =>
              have hrow : r = sendFailed row := hsettles
              refine h.ahead p hp hacked row (.failed hp' (hrow ▸ hstatus)) ?_
              rw [htopic, hsettles.topic_eq]
        · exact h.ahead p hp hacked r (.pending hr hstatus) htopic
    | todo hr => exact absurd hr List.not_mem_nil
    | failed hr _ => exact absurd hr List.not_mem_nil

/-- Rows are deleted. -/
theorem sublist (h : Ordered created w sends s) {table : OutboxTable} (hsub : table ⊆ s.table)
    (dropped : List QueuedRow) :
    Ordered created w sends { s with table := table, dropped := dropped } := by
  refine ⟨h.dates, fun r hr => h.dated r (hsub hr), fun r hr => h.publishing r (hsub hr), h.sorted,
    fun r hr row hrow => h.oldest r hr row (hsub hrow), h.sent, h.acked, fun p hp hacked r hr => ?_⟩
  refine h.ahead p hp hacked r ?_
  cases hr with
  | pending hr hstatus => exact .pending (hsub hr) hstatus
  | todo hr => exact .todo hr
  | failed hr hstatus => exact .failed hr hstatus

/-- Acknowledgements do not matter. -/
theorem acknowledge (h : Ordered created w sends s) (acked : List KafkaMessage) :
    Ordered created w sends { s with acked := acked } :=
  ⟨h.dates, h.dated, h.publishing, h.sorted, h.oldest, h.sent, h.acked, h.ahead⟩

/-- A service commits a younger row. -/
theorem insert (h : Ordered created w sends s) (hheld : ∀ row ∈ w.rows, row ∈ s.table)
    (hknown : ∀ row ∈ s.table, row.id ∈ s.committed.map (·.id)) {s' : Shared}
    (hs' : InsertsLater created s s') : Ordered created w sends s' := by
  obtain ⟨event, hfresh, hlater, rfl⟩ := hs'
  -- what has been committed before is older
  have holder : ∀ {id}, id ∈ s.committed.map (·.id) → created id < created event.id := fun hid => by
    obtain ⟨a, ha, rfl⟩ := List.mem_map.mp hid
    exact hlater a ha
  refine ⟨fun a ha b hb heq => ?_, fun r hr => ?_, fun r hr hstatus => ?_, h.sorted,
    fun r hr row hrow hstatus => ?_, fun p hp => ?_, h.acked, fun p hp hacked r hr htopic => ?_⟩
  · rcases List.mem_cons.mp ha with rfl | ha' <;> rcases List.mem_cons.mp hb with rfl | hb'
    · rfl
    · exact absurd heq.symm (hlater b hb').ne
    · exact absurd heq (hlater a ha').ne
    · exact h.dates a ha' b hb' heq
  · rcases List.mem_append.mp hr with hr | hr
    · exact h.dated r hr
    · rw [List.mem_singleton.mp hr]
  · rcases List.mem_append.mp hr with hr | hr
    · exact h.publishing r hr hstatus
    · rw [List.mem_singleton.mp hr] at hstatus
      cases hstatus
  · rcases List.mem_append.mp hrow with hrow | hrow
    · exact h.oldest r hr row hrow hstatus
    · have hmem := hheld r (List.mem_append_right _ hr)
      rw [List.mem_singleton.mp hrow, h.dated r hmem]
      exact holder (hknown r hmem)
  · exact ⟨List.mem_cons_of_mem _ (h.sent p hp).1, (h.sent p hp).2⟩
  · cases hr with
    | pending hr hstatus =>
        rcases List.mem_append.mp hr with hr | hr
        · exact h.ahead p hp hacked r (.pending hr hstatus) htopic
        · rw [List.mem_singleton.mp hr, (h.sent p hp).2]
          exact holder (h.sent p hp).1
    | todo hr => exact h.ahead p hp hacked r (.todo hr) htopic
    | failed hr hstatus => exact h.ahead p hp hacked r (.failed hr hstatus) htopic

/-- An operation of the relay keeps the order. -/
theorem effect {g : Tally} {c : World Shared Session}
    (h : Ordered created (g.work 0) g.sends c.shared) (hheld : Held g.work g.cleaned c.shared)
    {o : Op}
    {r : Except Exc o.Out} (hguard : batches.guard o (g.work 0)) (hends : Ends c.shared o r)
    (hsingle : Single g c (.call 0 o r)) (hunbroken : Unbroken g c (.call 0 o r)) :
    Ordered created (Work.step o r (g.work 0)) (Work.sending o r (g.work 0) ++ g.sends)
      (OutboxRelay.effect o r c.shared) := by
  have hmem : ∀ row ∈ (g.work 0).rows, row ∈ c.shared.table := fun row hrow =>
    (hheld.held 0 row hrow).1
  cases r with
  | error e =>
      cases o with
      | sendAndWait message =>
          cases hsingle
          obtain ⟨row, rest, htodo, -⟩ := exists_todo hguard
          have hrow : row ∈ c.shared.table :=
            hmem row (List.mem_append_right _ (htodo ▸ List.mem_cons_self))
          have hsent := h.refused htodo hrow (hheld.known row hrow)
          simpa [Work.step, Work.send, Work.sending, OutboxRelay.effect, htodo] using hsent
      | _ => cases hsingle
  | ok a =>
      cases o with
      | sendAndWait message =>
          obtain ⟨row, rest, htodo, rfl⟩ := exists_todo hguard
          have hrow : row ∈ c.shared.table :=
            hmem row (List.mem_append_right _ (htodo ▸ List.mem_cons_self))
          have hsent := (h.accepted htodo hrow (hheld.known row hrow) hunbroken).acknowledge
            (row.message :: c.shared.acked)
          simpa [Work.step, Work.send, Work.sending, OutboxRelay.effect, htodo] using hsent
      | claim =>
          have hempty : g.work 0 = {} := hguard
          rw [hempty] at h
          exact h.claim hheld.known hends hsingle
      | confirm rows => exact h.confirm hmem (hheld.distinct 0) hguard
      | recoverStuckRows cutoff =>
          -- the relay holds nothing, so there is nothing to reset
          have hempty : g.work 0 = {} := hguard
          have hnone : ∀ row ∈ c.shared.table, OutboxTable.isStuck cutoff row = false := by
            intro row hrow
            have hstatus : row.status ≠ .publishing := fun hstatus => by
              have hheld := h.publishing row hrow hstatus
              rw [hempty] at hheld
              exact absurd hheld List.not_mem_nil
            simp [OutboxTable.isStuck, hstatus]
          have htable : c.shared.table.recoverStuckRows cutoff = c.shared.table :=
            OutboxTable.recoverStuckRows_eq hnone
          dsimp only [OutboxRelay.effect]
          rw [htable]
          exact h
      | cleanupPublishedRows publishedCutoff failedCutoff =>
          refine h.sublist (fun row hrow => ?_) _
          exact (OutboxTable.mem_cleanupPublishedRows.mp hrow).1
      | monotonic | now | sleep _ => exact h

end Ordered

/-! ## Runs -/

/-- A new event is an event with a new identifier. -/
theorem InsertsLater.inserts {created : UUID → Time} {s s' : Shared}
    (h : InsertsLater created s s') : Inserts s s' := by
  obtain ⟨row, hfresh, -, rfl⟩ := h
  exact ⟨row, _, hfresh, rfl⟩

/-- A backlog has each row once. -/
theorem Backlog.tidy {created : UUID → Time} {s : Shared} (h : Backlog created s) : Tidy s where
  ids := h.ids
  known := fun row hrow => by
    rw [h.committed, List.map_map]
    exact List.mem_map_of_mem hrow

/-- At the start every row can still be sent, and none has been. -/
theorem Backlog.ordered {created : UUID → Time} {s : Shared} (h : Backlog created s) :
    Ordered created {} [] s := by
  refine ⟨fun a ha b hb heq => ?_, h.dated, fun row hrow hstatus => ?_, .nil,
    fun r hr => absurd hr List.not_mem_nil, fun p hp => absurd hp List.not_mem_nil, .nil,
    fun p hp => absurd hp List.not_mem_nil⟩
  · rw [h.committed] at ha hb
    obtain ⟨row, hrow, rfl⟩ := List.mem_map.mp ha
    obtain ⟨row', hrow', rfl⟩ := List.mem_map.mp hb
    rw [← h.dated row hrow, ← h.dated row' hrow'] at heq
    rw [List.inj_on_of_nodup_map h.dates hrow hrow' heq]
  · rw [h.pending row hrow] at hstatus
    cases hstatus

/-- The steps of a single relay whose batches are not broken. -/
def SingleUnbroken (g : Tally) (w : World Shared Session) (l : Label Op Op.Out Exc) : Prop :=
  Single g w l ∧ Unbroken g w l

/-- Whether a step meets both conditions is decidable. -/
instance (g : Tally) (w : World Shared Session) (l : Label Op Op.Out Exc) :
    Decidable (SingleUnbroken g w l) :=
  inferInstanceAs (Decidable (_ ∧ _))

/-- The observer knows the batch of the relay. -/
theorem datedRelay_follows (created : UUID → Time)
    (ok : Tally → World Shared Session → Label Op Op.Out Exc → Prop) :
    tally.Follows (datedRelay created) batches Work.step {} Tally.work ok :=
  ⟨(tally_follows ok).start, (tally_follows ok).next, (tally_follows ok).possible,
    (tally_follows ok).safe⟩

/-- In every run of a single relay whose batches are not broken, no row that can still be sent is
older than one that Kafka has acknowledged for its topic. -/
theorem ordered {created : UUID → Time} {s : Shared} (hs : Backlog created s) {g : Tally}
    {c : Config Op Op.Out Exc Unit Shared Session}
    (h : Observes tally (datedRelay created) SingleUnbroken s g c) :
    c.size ≤ 1 ∧ Held g.work g.cleaned c.shared ∧ Ordered created (g.work 0) g.sends c.shared := by
  refine h.sustained (I := fun g w => w.size ≤ 1 ∧ Held g.work g.cleaned w.shared ∧
    Ordered created (g.work 0) g.sends w.shared) (datedRelay_follows created SingleUnbroken) ?_ ?_
  · constructor
    · rintro g c - hok ⟨hsize, hheld, hordered⟩
      exact ⟨Nat.succ_le_succ (Nat.le_of_eq hok.1), hheld, hordered⟩
    · rintro g c i o r hcall ⟨hsize, hheld, hordered⟩
      -- there is one relay only
      have hi : i = 0 := by
        have := hcall.lt_size
        omega
      subst hi
      have hidle := (hcall.observes.safe (datedRelay_follows created SingleUnbroken)).1
      refine ⟨hsize, hheld.effect hcall.guard hcall.enabled ?_, ?_⟩
      · -- what is recovered is held by nobody: the relay is idle when it recovers
        rintro cutoff rfl - row - - j held hmem
        by_cases hj : j = 0
        · rw [hj, show g.work 0 = {} from hcall.guard] at hmem
          exact absurd hmem List.not_mem_nil
        · rw [hidle j (by omega)] at hmem
          exact absurd hmem List.not_mem_nil
      · have hwork : (tally.next c.toWorld (.call 0 o r) g).work 0 = Work.step o r (g.work 0) :=
          Function.update_self 0 _ g.work
        rw [hwork]
        exact hordered.effect hheld hcall.guard hcall.enabled hcall.allowed.1 hcall.allowed.2
    · exact fun _ hok _ => hok.1.elim
    · rintro g c s' - - ⟨hsize, hheld, hordered⟩ hs'
      exact ⟨hsize, hheld.insert hs'.inserts,
        hordered.insert (fun row hrow => (hheld.held 0 row hrow).1) hheld.known hs'⟩
  · exact ⟨Nat.zero_le _, hs.tidy.held, hs.ordered⟩

end OutboxRelay

/-- A single relay, whose batches are not broken, publishes the events of a topic in the order of
their dates. -/
theorem published_in_order {created : UUID → Time} {s : OutboxRelay.Shared}
    (hs : Backlog created s) {g : Tally}
    {c : Config OutboxRelay.Op OutboxRelay.Op.Out OutboxRelay.Exc Unit
      OutboxRelay.Shared OutboxRelay.Session}
    (h : Observes tally (datedRelay created) SingleUnbroken s g c) : InCreatedOrder g.sends := by
  obtain ⟨-, -, hordered⟩ := ordered hs h
  intro topic
  rw [firstAcked, List.pairwise_reverse]
  refine List.Pairwise.sublist (List.dedup_sublist _) ?_
  rw [List.pairwise_map]
  refine (hordered.acked.filter _).imp_of_mem ?_
  intro later earlier hlater hearlier h
  have hlater := (List.mem_filter.mp hlater).2
  have hearlier := (List.mem_filter.mp hearlier).2
  rw [Bool.and_eq_true, decide_eq_true_eq] at hlater hearlier
  exact h hlater.1 hearlier.1 (hearlier.2.trans hlater.2.symm)

/-- The dates of the sample events. -/
def sampleDates (id : UUID) : Time := id.bits.toNat

/-- Two events of one topic wait to be published. -/
def twoPending : OutboxRelay.Shared where
  table := [1, 2].map fun n => { toOutboxRow := sampleEvent n, createdAt := sampleDates ⟨n⟩ }
  committed := [sampleEvent 1, sampleEvent 2]

/-- The two pending rows are a backlog. -/
theorem twoPending_backlog : Backlog sampleDates twoPending := by
  constructor <;> decide

/-- The schedules of one relay while nothing is committed. -/
def datedPlayer (created : UUID → Time) : (datedRelay created).Player ClockHint where
  spawn := clockPlayer.spawn
  call := clockPlayer.call
  env := fun _ _ => none

/-- Kafka is down for one batch, and accepts the next one. -/
def outage : List (Move ClockHint) :=
  [.spawn (.loops 2), .call 0 (.seconds 0), .call 0 .auto, .call 0 .refused, .call 0 .refused,
    .call 0 .auto, .call 0 .auto, .call 0 (.seconds 0), .call 0 .auto, .call 0 .auto, .call 0 .auto,
    .call 0 .auto]

/-- A relay that publishes both rows in order after an outage. -/
theorem published_in_order_outage :
    ∃ (g : Tally) (c : Config OutboxRelay.Op OutboxRelay.Op.Out OutboxRelay.Exc Unit
      OutboxRelay.Shared OutboxRelay.Session),
      Observes tally (datedRelay sampleDates) SingleUnbroken twoPending g c ∧
      firstAcked g.sends "account.events" = [(⟨1⟩, 1), (⟨2⟩, 2)] ∧ InCreatedOrder g.sends := by
  have hplay : (observe tally SingleUnbroken (datedPlayer sampleDates) {}
      ((datedRelay sampleDates).initial twoPending) outage).any (fun p =>
        decide (firstAcked p.1.sends "account.events" = [(⟨1⟩, 1), (⟨2⟩, 2)])) = true := by
    decide +kernel
  obtain ⟨⟨g, c⟩, hc, hP⟩ := (Option.any_eq_true _ _).mp hplay
  have h := observes_of_observe .start hc
  exact ⟨g, c, h, of_decide_eq_true hP, published_in_order twoPending_backlog h⟩

/-- Kafka refuses the first message of a batch and accepts the second one. -/
def overtaking : List (Move ClockHint) :=
  [.spawn (.loops 2), .call 0 (.seconds 0), .call 0 .auto, .call 0 .refused, .call 0 .auto,
    .call 0 .auto, .call 0 .auto, .call 0 .auto, .call 0 (.seconds 0), .call 0 .auto, .call 0 .auto]

/-- Sending the older of two events fails, and the younger one overtakes it. -/
theorem published_out_of_order :
    ¬ ∀ {created : UUID → Time} {s : OutboxRelay.Shared}, Backlog created s → ∀ {g : Tally}
      {c : Config OutboxRelay.Op OutboxRelay.Op.Out OutboxRelay.Exc Unit
        OutboxRelay.Shared OutboxRelay.Session},
      Observes tally (datedRelay created) Single s g c → InCreatedOrder g.sends := by
  intro horder
  have hplay : (observe tally Single (datedPlayer sampleDates) {}
      ((datedRelay sampleDates).initial twoPending) overtaking).any (fun p =>
        decide (firstAcked p.1.sends "account.events" = [(⟨2⟩, 2), (⟨1⟩, 1)])) = true := by
    decide +kernel
  obtain ⟨⟨g, c⟩, hc, hP⟩ := (Option.any_eq_true _ _).mp hplay
  have hpairs := horder twoPending_backlog (observes_of_observe .start hc) "account.events"
  rw [of_decide_eq_true hP] at hpairs
  revert hpairs
  decide

end MiniWallet

import MiniWallet.Workers.OutboxRelay

/-!
# No event is lost silently

A relay writes back a row that it has held in memory while other relays, the recovery and the
cleanup worked on the table. What it writes is nevertheless true: it says `published` only of a row
whose message Kafka has acknowledged, and `failed` only after the last retry.

* `Reported`: what a relay knows about a row that it writes back.
* `keeps_relayLoop`: a relay writes back only such rows.
* `Accounted`: an event that was committed has been acknowledged, is still in the table, or was
  dropped after its last retry.
* `outbox_never_loses`: the guarantee for every run.
-/

namespace MiniWallet

open Process System

namespace OutboxRelay

/-! ## What a relay writes back -/

/-- The row says no more than what is known: `published` of an acknowledged message, and `failed`
after the last retry. -/
structure Truthful (acked : List KafkaMessage) (row : QueuedRow) : Prop where
  published : row.status = .published → row.message ∈ acked
  failed : row.status = .failed → maxOutboxRetries ≤ row.retryCount

/-- A row that is neither published nor failed says nothing. -/
theorem truthful_of_open {acked : List KafkaMessage} {row : QueuedRow}
    (h : row.status = .pending ∨ row.status = .publishing) : Truthful acked row := by
  constructor <;> intro hstatus <;> rw [hstatus] at h <;> simp at h

/-- A status that is true stays true when more is acknowledged. -/
theorem Truthful.mono {acked acked' : List KafkaMessage} {row : QueuedRow} (h : Truthful acked row)
    (hsub : acked ⊆ acked') : Truthful acked' row :=
  ⟨fun hstatus => hsub (h.published hstatus), h.failed⟩

/-- A relay that has seen `σ` may write the row back. -/
structure Reported (σ : Session) (row : QueuedRow) : Prop where
  claimed : row.toOutboxRow ∈ σ.claimed
  truthful : Truthful σ.acked row

/-- A relay never forgets. -/
structure Session.Grows (σ σ' : Session) : Prop where
  claimed : σ.claimed ⊆ σ'.claimed
  acked : σ.acked ⊆ σ'.acked

/-- Nothing is forgotten without a step. -/
theorem Session.Grows.refl (σ : Session) : σ.Grows σ := ⟨fun _ h => h, fun _ h => h⟩

/-- Nothing is forgotten in two steps if nothing is in either. -/
theorem Session.Grows.trans {σ σ' σ'' : Session} (h : σ.Grows σ') (h' : σ'.Grows σ'') :
    σ.Grows σ'' :=
  ⟨fun _ hr => h'.claimed (h.claimed hr), fun _ hm => h'.acked (h.acked hm)⟩

/-- A row that was reported stays reported. -/
theorem Reported.mono {σ σ' : Session} {row : QueuedRow} (h : Reported σ row)
    (hgrows : σ.Grows σ') :
    Reported σ' row :=
  ⟨hgrows.claimed h.claimed, h.truthful.mono hgrows.acked⟩

/-- An operation adds to what a relay has seen. -/
theorem grows_after (o : Op) (r : Except Exc o.Out) (σ : Session) : σ.Grows (after o r σ) := by
  cases o <;> cases r <;> try exact .refl σ
  · exact ⟨fun _ h => List.mem_append_right _ h, fun _ h => h⟩
  · exact ⟨fun _ h => h, fun _ h => List.mem_cons_of_mem _ h⟩

/-- The contract of a relay: it confirms only what it knows. -/
def contract : Contract Op Op.Out Exc Session where
  guard
    | .confirm rows, σ => ∀ row ∈ rows, Reported σ row
    | _, _ => True
  possible := fun _ _ _ => True

/-- From session `σ` the program keeps to the contract, and ends with `Q` if it returns. -/
def Keeps {α : Type} (p : Program α) (Q : α → Session → Prop) (σ : Session) : Prop :=
  contract.wp after p Q (fun _ _ => True) σ

section Rules

variable {α β : Type} {σ : Session}

/-- Returning keeps the contract. -/
theorem keeps_pure {a : α} {Q : α → Session → Prop} (h : Q a σ) : Keeps (pure a) Q σ :=
  (contract.wp_pure after a).mpr h

/-- One program after the other. -/
theorem keeps_bind {p : Program α} {f : α → Program β} {Q : β → Session → Prop}
    (h : Keeps p (fun a σ' => Keeps (f a) Q σ') σ) : Keeps (p >>= f) Q σ :=
  (contract.wp_bind after p f).mpr h

/-- A result may be described more weakly. -/
theorem keeps_mono {p : Program α} {Q Q' : α → Session → Prop} (h : Keeps p Q σ)
    (hQ : ∀ a σ', Q a σ' → Q' a σ') : Keeps p Q' σ :=
  contract.wp_mono after hQ (fun _ _ h => h) h

/-- An operation under its guard. -/
theorem keeps_perform {o : Op} {Q : o.Out → Session → Prop} (hguard : contract.guard o σ)
    (h : ∀ a, Q a (after o (.ok a) σ)) : Keeps (Prog.perform o) Q σ :=
  (contract.wp_perform after o).mpr ⟨hguard, fun a _ => h a, fun _ _ => trivial⟩

/-- An operation without a guard, of which only matters that nothing is forgotten. -/
theorem keeps_grows {o : Op} (hguard : contract.guard o σ) :
    Keeps (Prog.perform o) (fun _ σ' => σ.Grows σ') σ :=
  keeps_perform hguard fun a => grows_after o (.ok a) σ

end Rules

variable {σ : Session}

/-- The row after a failed attempt is truthful. -/
theorem truthful_sendFailed (acked : List KafkaMessage) (row : QueuedRow) :
    Truthful acked (sendFailed row) := by
  unfold sendFailed
  dsimp only
  split
  · next hretries => exact ⟨fun h => (by cases h), fun _ => hretries⟩
  · exact truthful_of_open (.inl rfl)

/-- A failed send changes no field of the event. -/
theorem sendFailed_toOutboxRow (row : QueuedRow) :
    (sendFailed row).toOutboxRow = row.toOutboxRow := by
  unfold sendFailed
  dsimp only
  split <;> rfl

/-- Whatever `send_and_wait` raises, the handler finds the row still claimed. -/
theorem keeps_sendFailed {row : QueuedRow} {σ₀ : Session} (h : row.toOutboxRow ∈ σ.claimed)
    (hgrows : σ₀.Grows σ) (e : Exc) :
    Keeps (match e with
      | .kafkaError => pure (sendFailed row)
      | e => throw e) (fun row' σ' => Reported σ' row' ∧ σ₀.Grows σ') σ := by
  cases e with
  | kafkaError =>
      refine keeps_pure ⟨⟨?_, truthful_sendFailed _ row⟩, hgrows⟩
      rw [sendFailed_toOutboxRow]
      exact h
  | other => exact (contract.wp_throw after _).mpr trivial

/-- Sending the message of a claimed row makes it a row that can be reported. -/
theorem keeps_publishRow {row : QueuedRow} (h : row.toOutboxRow ∈ σ.claimed) :
    Keeps (publishRow row) (fun row' σ' => Reported σ' row' ∧ σ.Grows σ') σ := by
  unfold publishRow Keeps
  rw [contract.wp_tryCatch, contract.wp_bind]
  refine (contract.wp_perform after _).mpr ⟨trivial, fun _ _ => ?_, fun e _ => ?_⟩
  · have hsent : σ.Grows (after (.sendAndWait row.message) (.ok ()) σ) := grows_after _ _ σ
    rw [contract.wp_bind]
    refine (contract.wp_perform after _).mpr ⟨trivial, fun publishedAt _ => ?_, fun e _ => ?_⟩
    · refine (contract.wp_pure after _).mpr ⟨⟨h, ?_⟩, hsent⟩
      exact ⟨fun _ => List.mem_cons_self, fun hstatus => by cases hstatus⟩
    · exact keeps_sendFailed (hsent.claimed h) hsent e
  · exact keeps_sendFailed h (.refl σ) e

/-- So does sending a whole batch. -/
theorem keeps_publishRows {rows : List QueuedRow} (h : ∀ row ∈ rows, row.toOutboxRow ∈ σ.claimed) :
    Keeps (publishRows rows) (fun rows' σ' => (∀ row ∈ rows', Reported σ' row) ∧ σ.Grows σ') σ := by
  induction rows generalizing σ with
  | nil => exact keeps_pure ⟨fun _ h => absurd h List.not_mem_nil, .refl σ⟩
  | cons row rows ih =>
      refine keeps_bind (keeps_mono (keeps_publishRow (h row List.mem_cons_self)) ?_)
      rintro row' σ₁ ⟨hrow, hgrows₁⟩
      have hrest : ∀ r ∈ rows, r.toOutboxRow ∈ σ₁.claimed := fun r hr =>
        hgrows₁.claimed (h r (List.mem_cons_of_mem _ hr))
      refine keeps_bind (keeps_mono (ih hrest) ?_)
      rintro rows' σ₂ ⟨hrows, hgrows₂⟩
      refine keeps_pure ⟨fun r hr => ?_, hgrows₁.trans hgrows₂⟩
      rcases List.mem_cons.mp hr with rfl | hr
      · exact hrow.mono hgrows₂
      · exact hrows r hr

/-- A claimed batch is known to the relay. -/
theorem keeps_claimBatch :
    Keeps claimBatch (fun rows σ' => ∀ row ∈ rows, row.toOutboxRow ∈ σ'.claimed) σ := by
  refine keeps_bind (keeps_perform trivial fun rows => keeps_pure fun row hrow => ?_)
  obtain ⟨row', hrow', rfl⟩ := List.mem_map.mp hrow
  exact List.mem_append_left _ (List.mem_map.mpr ⟨row', hrow', rfl⟩)

/-- The recovery of stuck rows keeps the contract. -/
theorem keeps_recoverStuckRows : Keeps recoverStuckRows (fun _ _ => True) σ :=
  keeps_bind (keeps_mono (keeps_grows trivial) fun _ _ _ =>
    keeps_mono (keeps_grows trivial) fun _ _ _ => trivial)

/-- The cleanup keeps the contract. -/
theorem keeps_cleanupPublishedRows : Keeps cleanupPublishedRows (fun _ _ => True) σ :=
  keeps_bind (keeps_mono (keeps_grows trivial) fun _ _ _ =>
    keeps_bind (keeps_mono (keeps_grows trivial) fun _ _ _ =>
      keeps_mono (keeps_grows trivial) fun _ _ _ => trivial))

/-- A task that is due at intervals keeps the contract if it does when it is run. -/
theorem keeps_whenDue {now last interval : ℚ} {task : Program Unit}
    (h : Keeps task (fun _ _ => True) σ) :
    Keeps (whenDue now last interval task) (fun _ _ => True) σ := by
  unfold whenDue
  split
  · exact keeps_bind (keeps_mono h fun _ _ _ => keeps_pure trivial)
  · exact keeps_pure trivial

/-- The loop keeps to the contract, for any number of iterations. -/
theorem keeps_relayLoop (n : ℕ) (s : LoopState) : Keeps (relayLoop n s) (fun _ _ => True) σ := by
  induction n generalizing s σ with
  | zero => exact keeps_pure trivial
  | succ n ih =>
      unfold relayLoop
      refine keeps_bind (keeps_mono (keeps_grows trivial) fun now σ₁ _ => ?_)
      refine keeps_bind (keeps_mono (keeps_whenDue keeps_recoverStuckRows) fun _ σ₂ _ => ?_)
      refine keeps_bind (keeps_mono (keeps_whenDue keeps_cleanupPublishedRows) fun _ σ₃ _ => ?_)
      refine keeps_bind (keeps_mono keeps_claimBatch fun claimed σ₄ hclaimed => ?_)
      split
      · exact keeps_bind (keeps_mono (keeps_grows trivial) fun _ _ _ => ih _)
      · refine keeps_bind (keeps_mono (keeps_publishRows hclaimed) fun rows σ₅ hrows => ?_)
        refine keeps_bind (keeps_mono (keeps_grows hrows.1) fun _ σ₆ _ => ?_)
        exact keeps_bind (keeps_mono (keeps_grows trivial) fun _ _ _ => ih _)

/-- The relays abide by the contract. -/
theorem abides (s : Shared) : relay.Abides contract s where
  possible := fun _ _ => trivial
  safe := by
    rintro p ⟨n, rfl⟩
    exact Contract.Safe.of_wp _ _ (keeps_relayLoop n {})

/-! ## The table -/

/-- The committed event has been acknowledged, is in the table, or was dropped after its last
retry. -/
def Accounted (s : Shared) (event : OutboxRow) : Prop :=
  event.message ∈ s.acked ∨ (∃ row ∈ s.table, row.toOutboxRow = event) ∨
    ∃ row ∈ s.dropped, row.toOutboxRow = event ∧ maxOutboxRetries ≤ row.retryCount

/-- The invariant of the table. -/
structure Consistent (s : Shared) : Prop where
  /-- An identifier belongs to one event. -/
  ids : ∀ a ∈ s.committed, ∀ b ∈ s.committed, a.id = b.id → a = b
  /-- The rows come from services. -/
  origin : ∀ row ∈ s.table, row.toOutboxRow ∈ s.committed
  /-- What the rows say is true. -/
  truthful : ∀ row ∈ s.table, Truthful s.acked row
  accounted : ∀ event ∈ s.committed, Accounted s event

/-- A change of the table that keeps, for every row, a row of the same event. -/
theorem Consistent.withTable {s : Shared} (h : Consistent s) {table : OutboxTable}
    (horigin : ∀ row ∈ table, row.toOutboxRow ∈ s.committed)
    (htruthful : ∀ row ∈ table, Truthful s.acked row)
    (hkept : ∀ row ∈ s.table, ∃ row' ∈ table, row'.toOutboxRow = row.toOutboxRow) :
    Consistent { s with table := table } where
  ids := h.ids
  origin := horigin
  truthful := htruthful
  accounted := by
    intro event hevent
    rcases h.accounted event hevent with hacked | ⟨row, hrow, rfl⟩ | hdropped
    · exact .inl hacked
    · exact .inr (.inl (hkept row hrow))
    · exact .inr (.inr hdropped)

/-- A change row by row. -/
theorem Consistent.mapTable {s : Shared} (h : Consistent s) {f : QueuedRow → QueuedRow}
    (hcore : ∀ row ∈ s.table, (f row).toOutboxRow = row.toOutboxRow)
    (htruthful : ∀ row ∈ s.table, Truthful s.acked (f row)) :
    Consistent { s with table := s.table.map f } := by
  refine h.withTable (fun row hrow => ?_) (fun row hrow => ?_) fun row hrow => ?_
  · obtain ⟨row', hrow', rfl⟩ := List.mem_map.mp hrow
    rw [hcore row' hrow']
    exact h.origin row' hrow'
  · obtain ⟨row', hrow', rfl⟩ := List.mem_map.mp hrow
    exact htruthful row' hrow'
  · exact ⟨f row, List.mem_map_of_mem hrow, hcore row hrow⟩

/-- Claiming rows says nothing about what was acknowledged. -/
theorem Consistent.claim {s : Shared} (h : Consistent s) (rows : List QueuedRow) :
    Consistent { s with table := s.table.claim rows } := by
  refine h.mapTable (fun row _ => ?_) fun row hrow => ?_
  · split <;> rfl
  · split
    · exact truthful_of_open (.inr rfl)
    · exact h.truthful row hrow

/-- Nor does setting them back to pending. -/
theorem Consistent.recoverStuckRows {s : Shared} (h : Consistent s) (cutoff : Time) :
    Consistent { s with table := s.table.recoverStuckRows cutoff } := by
  refine h.mapTable (fun row _ => ?_) fun row hrow => ?_
  · split <;> rfl
  · split
    · exact truthful_of_open (.inl rfl)
    · exact h.truthful row hrow

/-- Writing a row back, however old the copy is. -/
theorem Consistent.merge {s : Shared} (h : Consistent s) {row : QueuedRow}
    (horigin : row.toOutboxRow ∈ s.committed) (htruthful : Truthful s.acked row) :
    Consistent { s with table := s.table.merge row } := by
  unfold OutboxTable.merge
  split
  · refine h.mapTable (fun r hr => ?_) fun r hr => ?_
    · split
      · next hid => exact h.ids _ horigin _ (h.origin r hr) hid.symm
      · rfl
    · split
      · exact htruthful
      · exact h.truthful r hr
  · -- the row has been deleted in the meantime
    refine h.withTable (fun r hr => ?_) (fun r hr => ?_) fun r hr =>
      ⟨r, List.mem_append_left _ hr, rfl⟩
    · rcases List.mem_append.mp hr with hr | hr
      · exact h.origin r hr
      · rwa [List.mem_singleton.mp hr]
    · rcases List.mem_append.mp hr with hr | hr
      · exact h.truthful r hr
      · rwa [List.mem_singleton.mp hr]

/-- Merged copies have to be truthful. -/
theorem Consistent.confirm {s : Shared} (h : Consistent s) {rows : List QueuedRow}
    (horigin : ∀ row ∈ rows, row.toOutboxRow ∈ s.committed)
    (htruthful : ∀ row ∈ rows, Truthful s.acked row) :
    Consistent { s with table := s.table.confirm rows } := by
  induction rows generalizing s with
  | nil => exact h
  | cons row rows ih =>
      have hmerged := h.merge (horigin row List.mem_cons_self) (htruthful row List.mem_cons_self)
      exact ih hmerged (fun r hr => horigin r (List.mem_cons_of_mem _ hr))
        fun r hr => htruthful r (List.mem_cons_of_mem _ hr)

/-- A row that is deleted as published has been acknowledged, and a row that is deleted as failed
has had its last retry. -/
theorem Consistent.cleanupPublishedRows {s : Shared} (h : Consistent s)
    (publishedCutoff failedCutoff : Time) :
    Consistent { s with
      table := s.table.cleanupPublishedRows publishedCutoff failedCutoff
      dropped := s.table.filter (OutboxTable.isOldFailed failedCutoff) ++ s.dropped } where
  ids := h.ids
  origin := fun row hrow => h.origin row (List.mem_of_mem_filter (List.mem_of_mem_filter hrow))
  truthful := fun row hrow => h.truthful row (List.mem_of_mem_filter (List.mem_of_mem_filter hrow))
  accounted := by
    intro event hevent
    -- an event that is accounted for stays so
    rcases h.accounted event hevent with hacked | ⟨row, hrow, rfl⟩ | ⟨row, hrow, hevent⟩
    · exact .inl hacked
    · -- its row is in the table, and may be deleted as published or as failed
      by_cases hpublished : OutboxTable.isOldPublished publishedCutoff row
      · simp only [OutboxTable.isOldPublished, Bool.and_eq_true, decide_eq_true_eq] at hpublished
        exact .inl ((h.truthful row hrow).published hpublished.1)
      · by_cases hfailed : OutboxTable.isOldFailed failedCutoff row
        · refine .inr
            (.inr ⟨row, List.mem_append_left _ (List.mem_filter.mpr ⟨hrow, hfailed⟩), rfl, ?_⟩)
          simp only [OutboxTable.isOldFailed, Bool.and_eq_true, decide_eq_true_eq] at hfailed
          exact (h.truthful row hrow).failed hfailed.1
        · -- its row is still in the table
          refine .inr (.inl ⟨row, ?_, rfl⟩)
          simp [OutboxTable.cleanupPublishedRows, hrow, hpublished, hfailed]
    · exact .inr (.inr ⟨row, List.mem_append_right _ hrow, hevent⟩)

/-- Another acknowledgement leaves what is true true. -/
theorem Consistent.acknowledge {s : Shared} (h : Consistent s) (message : KafkaMessage) :
    Consistent { s with acked := message :: s.acked } where
  ids := h.ids
  origin := h.origin
  truthful := fun row hrow => (h.truthful row hrow).mono fun _ hm => List.mem_cons_of_mem _ hm
  accounted := by
    intro event hevent
    rcases h.accounted event hevent with hacked | hrest
    · exact .inl (List.mem_cons_of_mem _ hacked)
    · exact .inr hrest

/-- New rows are pending. -/
theorem Consistent.insert {s s' : Shared} (h : Consistent s) (hs' : Inserts s s') :
    Consistent s' := by
  obtain ⟨event, createdAt, hfresh, rfl⟩ := hs'
  have hnew : ∀ a ∈ s.committed, event.id ≠ a.id := fun a ha hid =>
    hfresh (hid ▸ List.mem_map_of_mem ha)
  refine ⟨fun a ha b hb hid => ?_, fun row hrow => ?_, fun row hrow => ?_, fun a ha => ?_⟩
  · -- the new event has an identifier of its own
    rcases List.mem_cons.mp ha with rfl | ha' <;> rcases List.mem_cons.mp hb with rfl | hb'
    · rfl
    · exact absurd hid (hnew b hb')
    · exact absurd hid.symm (hnew a ha')
    · exact h.ids a ha' b hb' hid
  · -- a row comes from a committed event
    rcases List.mem_append.mp hrow with hrow | hrow
    · exact List.mem_cons_of_mem _ (h.origin row hrow)
    · rw [List.mem_singleton.mp hrow]
      exact List.mem_cons_self
  · -- a row that Kafka has not seen claims nothing
    rcases List.mem_append.mp hrow with hrow | hrow
    · exact h.truthful row hrow
    · rw [List.mem_singleton.mp hrow]
      exact truthful_of_open (.inl rfl)
  · -- an event is in the table, was acknowledged, or was dropped
    rcases List.mem_cons.mp ha with rfl | ha
    · exact .inr (.inl ⟨_, List.mem_append_right _ (List.mem_singleton.mpr rfl), rfl⟩)
    · rcases h.accounted a ha with hacked | ⟨row, hrow, hevent⟩ | hdropped
      · exact .inl hacked
      · exact .inr (.inl ⟨row, List.mem_append_left _ hrow, hevent⟩)
      · exact .inr (.inr hdropped)

/-! ## Runs -/

/-- What a relay has seen did happen. -/
structure Informed (s : Shared) (σ : Session) : Prop where
  claimed : σ.claimed ⊆ s.committed
  acked : σ.acked ⊆ s.acked

/-- A step of one relay keeps the table consistent. -/
theorem Consistent.effect {s : Shared} {σ : Session} (h : Consistent s) (hσ : Informed s σ) {o : Op}
    (hguard : contract.guard o σ) (r : Except Exc o.Out) : Consistent (effect o r s) := by
  cases o <;> cases r <;> try exact h
  case claim.ok rows => exact h.claim rows
  case confirm.ok rows _ =>
    exact h.confirm (fun row hrow => hσ.claimed (hguard row hrow).claimed)
      fun row hrow => (hguard row hrow).truthful.mono hσ.acked
  case recoverStuckRows.ok cutoff _ => exact h.recoverStuckRows cutoff
  case cleanupPublishedRows.ok publishedCutoff failedCutoff _ =>
    exact h.cleanupPublishedRows publishedCutoff failedCutoff
  case sendAndWait.ok message _ => exact h.acknowledge message

/-- What was committed stays committed, and what was acknowledged stays acknowledged. -/
theorem Informed.effect {s : Shared} {σ : Session} (h : Informed s σ) (o : Op)
    (r : Except Exc o.Out) : Informed (effect o r s) σ := by
  cases o <;> cases r <;> try exact ⟨h.claimed, h.acked⟩
  exact ⟨h.claimed, fun _ hm => List.mem_cons_of_mem _ (h.acked hm)⟩

/-- A relay that takes a step learns what happened in it. -/
theorem Informed.after {s : Shared} {σ : Session} (h : Informed s σ) (hs : Consistent s) {o : Op}
    {r : Except Exc o.Out} (hr : Ends s o r) :
    Informed (OutboxRelay.effect o r s) (OutboxRelay.after o r σ) := by
  cases o <;> cases r <;> try exact ⟨h.claimed, h.acked⟩
  case claim.ok rows =>
    refine ⟨fun event hevent => ?_, h.acked⟩
    rcases List.mem_append.mp hevent with hevent | hevent
    · obtain ⟨row, hrow, rfl⟩ := List.mem_map.mp hevent
      exact hs.origin row (hr.pending row hrow).1
    · exact h.claimed hevent
  case sendAndWait.ok message _ =>
    refine ⟨h.claimed, fun m hm => ?_⟩
    rcases List.mem_cons.mp hm with rfl | hm
    · exact List.mem_cons_self
    · exact List.mem_cons_of_mem _ (h.acked hm)

/-- The invariants of a run. -/
theorem preserves : relay.PreservesEach contract anyStep {}
    fun s σ => Consistent s ∧ Informed s σ where
  init := by
    refine ⟨⟨?_, ?_, ?_, ?_⟩, ⟨?_, ?_⟩⟩ <;> intro a ha <;> cases ha
  own := by
    intro c i o r hcall h
    obtain ⟨hs, hσ⟩ := h i
    exact ⟨hs.effect hσ hcall.guard r, hσ.after hs hcall.enabled⟩
  other := by
    intro c i o r j hcall h hj
    exact ⟨(h i).1.effect (h i).2 hcall.guard r, (h j).2.effect o r⟩
  env := by
    intro c s' σ _ h he
    refine ⟨h.1.insert he, ?_⟩
    obtain ⟨event, createdAt, hfresh, rfl⟩ := he
    exact ⟨fun e he => List.mem_cons_of_mem _ (h.2.claimed he), h.2.acked⟩

end OutboxRelay

open OutboxRelay

/-- A configuration that relays and services reach together, starting with an empty table. -/
def RelayReaches
    (c : Config OutboxRelay.Op OutboxRelay.Op.Out OutboxRelay.Exc Unit OutboxRelay.Shared
    OutboxRelay.Session) : Prop :=
  relay.Run anyStep (relay.initial {}) c

/-- In every run a row is marked as published only after Kafka has acknowledged its message, and an
event that Kafka has not acknowledged is still in the table, or was deleted there after its last
retry. -/
theorem outbox_never_loses {c} (h : RelayReaches c) :
    (∀ row ∈ c.shared.table, row.status = .published → row.message ∈ c.shared.acked) ∧
      ∀ event ∈ c.shared.committed, event.message ∉ c.shared.acked →
        (∃ row ∈ c.shared.table, row.toOutboxRow = event ∧
          (row.status = .pending ∨ row.status = .publishing ∨ row.status = .failed)) ∨
        ∃ row ∈ c.shared.dropped, row.toOutboxRow = event ∧ maxOutboxRetries ≤ row.retryCount := by
  have hs : Consistent c.shared := (h.each (OutboxRelay.abides {}) preserves 0).1
  refine ⟨fun row hrow => (hs.truthful row hrow).published, fun event hevent hacked => ?_⟩
  rcases hs.accounted event hevent with hack | ⟨row, hrow, rfl⟩ | hdropped
  · exact absurd hack hacked
  · refine .inl ⟨row, hrow, rfl, ?_⟩
    have hstatus : row.status ≠ .published := fun hp => hacked ((hs.truthful row hrow).published hp)
    cases hcase : row.status <;> simp_all
  · exact .inr hdropped

/-- An event, for runs that are given explicitly. -/
def sampleEvent (n : BitVec 128) : OutboxRow where
  id := ⟨n⟩
  topic := "account.events"
  eventType := "account.opened"
  payload :=
    { eventId := UUID.str ⟨n⟩
      eventType := "account.opened"
      occurredAt := 0
      version := "1"
      actorId := none
      payload := .accountOpened ⟨"", "", "active"⟩ }

/-- Two events are committed, a relay claims both, and Kafka fails on the second one. -/
def halfSent : List (Move RelayHint) :=
  [.env (.insert (sampleEvent 1)), .env (.insert (sampleEvent 2)), .spawn .auto, .call 0 .auto,
    .call 0 .auto, .call 0 .auto, .call 0 .auto, .call 0 (.fail .kafkaError), .call 0 .auto]

/-- A relay is lost after one of its two rows was acknowledged. -/
theorem outbox_never_loses_halfSent :
    ∃ c, RelayReaches c ∧ (∃ row ∈ c.shared.table, row.status = .published ∧
        row.message ∈ c.shared.acked) ∧
      ∃ event ∈ c.shared.committed, event.message ∉ c.shared.acked ∧
        ((∃ row ∈ c.shared.table, row.toOutboxRow = event ∧
          (row.status = .pending ∨ row.status = .publishing ∨ row.status = .failed)) ∨
        ∃ row ∈ c.shared.dropped, row.toOutboxRow = event ∧ maxOutboxRetries ≤ row.retryCount) := by
  have hplay : (play anyStep relayPlayer (relay.initial {}) halfSent).any (fun c =>
      decide ((∃ row ∈ c.shared.table, row.status = .published) ∧
        sampleEvent 2 ∈ c.shared.committed ∧ (sampleEvent 2).message ∉ c.shared.acked)) = true := by
    decide +kernel
  obtain ⟨c, hc, hP⟩ := (Option.any_eq_true _ _).mp hplay
  obtain ⟨⟨row, hrow, hstatus⟩, hevent, hacked⟩ := of_decide_eq_true hP
  obtain ⟨hpublished, hkept⟩ := outbox_never_loses (run_of_play hc)
  exact ⟨c, run_of_play hc, ⟨row, hrow, hstatus, hpublished row hrow hstatus⟩, sampleEvent 2,
    hevent,
    hacked, hkept _ hevent hacked⟩

end MiniWallet

import MiniWallet.Process.Observer
import MiniWallet.Workers.OutboxRelay

/-!
# The batches of the relays

Between claiming a batch and confirming it a relay holds copies of the claimed rows. An observer
writes down, for every relay that is running, the rows it has yet to send and the rows it has sent,
and keeps a list of all sends and of all rows that were cleaned up. While no recovery takes a held
row away, no other transaction touches it.

* `Work`, `batches`, `keeps_relayLoop`: what a relay holds when it calls an operation.
* `Tally`, `tally`: what the observer writes down.
* `Considerate`: no recovery resets a row that a running relay holds.
* `Held`, `held`: under this condition, held rows are in the table as they were claimed, and no two
  relays hold the same row.
-/

namespace MiniWallet

open Process System

namespace OutboxRelay

/-! ## What a relay holds -/

/-- The batch of a relay between the claim and the confirmation. -/
structure Work where
  /-- The claimed rows that are still to be sent. -/
  todo : List QueuedRow := []
  /-- The rows whose turn has been, the last one first, and whether sending succeeded. -/
  sent : List (QueuedRow × Bool) := []
deriving DecidableEq

/-- The rows that the relay holds. -/
def Work.rows (w : Work) : List QueuedRow := w.sent.map (·.1) ++ w.todo

/-- The head of the batch has been sent. -/
def Work.send (w : Work) (success : Bool) : Work :=
  match w.todo with
  | row :: rows => ⟨rows, (row, success) :: w.sent⟩
  | [] => w

/-- The attempt for the row that was sent last counts as failed. -/
def Work.retract (w : Work) : Work :=
  match w.sent with
  | (row, _) :: sent => { w with sent := (row, false) :: sent }
  | [] => w

/-- What an operation does to the batch of the relay that calls it. Nothing catches an exception
other than `KafkaError`, and only `publishRow` catches that. -/
def Work.step : (o : Op) → Except Exc o.Out → Work → Work
  | .claim, .ok rows, _ => ⟨List.map OutboxTable.claimed rows, []⟩
  | .confirm _, .ok _, _ => {}
  | .sendAndWait _, .ok _, w => w.send true
  | .sendAndWait _, .error .kafkaError, w => w.send false
  | .now, .error .kafkaError, w => w.retract
  | _, .ok _, w => w
  | _, .error _, _ => {}

/-- How a row is written back: as published if sending it succeeded. -/
def Settles (sent : QueuedRow × Bool) (row : QueuedRow) : Prop :=
  if sent.2 then
    ∃ publishedAt, row = { sent.1 with status := .published, publishedAt := some publishedAt }
  else row = sendFailed sent.1

/-- What a relay owes: it sends the rows of its batch in order, it confirms the batch once all of
them have been sent, and it does everything else with empty hands. -/
def batches : Contract Op Op.Out Exc Work where
  guard := fun o w =>
    match o with
    | .sendAndWait message => w.todo.head?.map (·.message) = some message
    | .confirm rows => w.todo = [] ∧ List.Forall₂ Settles w.sent.reverse rows
    | .now => True
    | _ => w = {}
  possible := fun _ _ _ => True

/-- The program keeps to the contract from `w`, and if it returns, then in `Q`. -/
abbrev Batch {α : Type} (p : Program α) (Q : α → Work → Prop) (w : Work) : Prop :=
  batches.wp Work.step p Q (fun _ _ => True) w

section Rules

variable {α β : Type} {w : Work}

/-- Returning. -/
theorem batch_pure {a : α} {Q : α → Work → Prop} (h : Q a w) : Batch (pure a) Q w :=
  (batches.wp_pure Work.step a).mpr h

/-- One program after the other. -/
theorem batch_bind {p : Program α} {f : α → Program β} {Q : β → Work → Prop}
    (h : Batch p (fun a w' => Batch (f a) Q w') w) : Batch (p >>= f) Q w :=
  (batches.wp_bind Work.step p f).mpr h

/-- A result may be described more weakly. -/
theorem batch_mono {p : Program α} {Q Q' : α → Work → Prop} (h : Batch p Q w)
    (hQ : ∀ a w', Q a w' → Q' a w') : Batch p Q' w :=
  batches.wp_mono Work.step hQ (fun _ _ h => h) h

/-- An operation under its guard. -/
theorem batch_perform {o : Op} {Q : o.Out → Work → Prop} (hguard : batches.guard o w)
    (h : ∀ a, Q a (Work.step o (.ok a) w)) : Batch (Prog.perform o) Q w :=
  (batches.wp_perform Work.step o).mpr ⟨hguard, fun a _ => h a, fun _ _ => trivial⟩

end Rules

/-- Sending one row moves it to the sent rows, together with the way it will be written back. -/
theorem batch_publishRow {row : QueuedRow} {todo : List QueuedRow}
    {sent : List (QueuedRow × Bool)} :
    Batch (publishRow row)
      (fun row' w => ∃ success, Settles (row, success) row' ∧ w = ⟨todo, (row, success) :: sent⟩)
      ⟨row :: todo, sent⟩ := by
  unfold publishRow Batch
  rw [batches.wp_tryCatch, batches.wp_bind]
  refine (batches.wp_perform Work.step _).mpr ⟨rfl, fun _ _ => ?_, fun e _ => ?_⟩
  · rw [batches.wp_bind]
    refine (batches.wp_perform Work.step _).mpr ⟨trivial, fun publishedAt _ => ?_, fun e _ => ?_⟩
    · exact (batches.wp_pure Work.step _).mpr ⟨true, ⟨publishedAt, rfl⟩, rfl⟩
    · cases e with
      | kafkaError => exact batch_pure ⟨false, rfl, rfl⟩
      | other => exact (batches.wp_throw Work.step _).mpr trivial
  · cases e with
    | kafkaError => exact batch_pure ⟨false, rfl, rfl⟩
    | other => exact (batches.wp_throw Work.step _).mpr trivial

/-- Sending the rows of a batch moves all of them, in order. -/
theorem batch_publishRows {rows : List QueuedRow} {sent : List (QueuedRow × Bool)} :
    Batch (publishRows rows)
      (fun rows' w => ∃ new, List.Forall₂ Settles new rows' ∧ w = ⟨[], new.reverse ++ sent⟩)
      ⟨rows, sent⟩ := by
  induction rows generalizing sent with
  | nil => exact batch_pure ⟨[], .nil, rfl⟩
  | cons row rows ih =>
      refine batch_bind (batch_mono batch_publishRow ?_)
      rintro row' _ ⟨success, hrow, rfl⟩
      refine batch_bind (batch_mono ih ?_)
      rintro rows' _ ⟨new, hrows, rfl⟩
      exact batch_pure ⟨(row, success) :: new, .cons hrow hrows, by simp⟩

/-- The recovery of stuck rows is done between two batches. -/
theorem batch_recoverStuckRows : Batch recoverStuckRows (fun _ w => w = {}) {} :=
  batch_bind (batch_perform trivial fun _ => batch_perform rfl fun _ => rfl)

/-- So is the cleanup. -/
theorem batch_cleanupPublishedRows : Batch cleanupPublishedRows (fun _ w => w = {}) {} :=
  batch_bind (batch_perform trivial fun _ =>
    batch_bind (batch_perform trivial fun _ => batch_perform rfl fun _ => rfl))

/-- So is a task that is due at intervals. -/
theorem batch_whenDue {now last interval : ℚ} {task : Program Unit}
    (h : Batch task (fun _ w => w = {}) {}) :
    Batch (whenDue now last interval task) (fun _ w => w = {}) {} := by
  unfold whenDue
  split
  · exact batch_bind (batch_mono h fun _ _ hw => batch_pure hw)
  · exact batch_pure rfl

/-- The loop keeps to the contract, for any number of iterations. -/
theorem batch_relayLoop (n : ℕ) (s : LoopState) : Batch (relayLoop n s) (fun _ w => w = {}) {} := by
  induction n generalizing s with
  | zero => exact batch_pure rfl
  -- one iteration, which ends without work in hand
  | succ n ih =>
      unfold relayLoop
      refine batch_bind (batch_perform rfl fun now => ?_)
      refine batch_bind (batch_mono (batch_whenDue batch_recoverStuckRows) ?_)
      rintro _ _ rfl
      refine batch_bind (batch_mono (batch_whenDue batch_cleanupPublishedRows) ?_)
      rintro _ _ rfl
      refine batch_bind (batch_bind (batch_perform rfl fun rows => batch_pure ?_))
      dsimp only [Work.step]
      split
      · -- nothing was claimed
        next hempty =>
          rw [List.isEmpty_iff.mp hempty]
          exact batch_bind (batch_perform rfl fun _ => ih _)
      · -- the rows are sent, and the guard of the confirmation speaks of the copies after it
        refine batch_bind (batch_mono batch_publishRows ?_)
        rintro rows' _ ⟨new, hnew, rfl⟩
        have hguard : batches.guard (.confirm rows') ⟨[], new.reverse ++ []⟩ := by
          exact ⟨rfl, by simpa using hnew⟩
        refine batch_bind (batch_perform hguard fun _ => ?_)
        exact batch_bind (batch_perform rfl fun _ => ih _)

/-! ## What the observer writes down -/

/-- The row whose sending has just ended, if it ended in a way that the relay survives. -/
def Work.sending : (o : Op) → Except Exc o.Out → Work → List (QueuedRow × Bool)
  | .sendAndWait _, .ok _, w => (w.todo.take 1).map (·, true)
  | .sendAndWait _, .error .kafkaError, w => (w.todo.take 1).map (·, false)
  | _, _, _ => []

/-- The rows that an operation deletes. -/
def cleanedBy (table : OutboxTable) : (o : Op) → Except Exc o.Out → List QueuedRow
  | .cleanupPublishedRows publishedCutoff failedCutoff, .ok _ =>
      table.filter fun row =>
        OutboxTable.isOldPublished publishedCutoff row || OutboxTable.isOldFailed failedCutoff row
  | _, _ => []

/-- What the observer of the relays writes down. -/
structure Tally where
  /-- The batch of each relay that is running. -/
  work : ℕ → Work := fun _ => {}
  /-- The rows that have been sent, the last one first, and whether sending succeeded. A row stands
  there as it was claimed. -/
  sends : List (QueuedRow × Bool) := []
  /-- The rows that `cleanup_published_rows` has deleted. -/
  cleaned : List QueuedRow := []

/-- The observer of the relays. -/
def tally : Observer Op Op.Out Exc Shared Session Tally where
  start := {}
  next := fun w l g =>
    { work := l.develop {} Work.step g.work
      sends := match l with
        | .call i o r => Work.sending o r (g.work i) ++ g.sends
        | _ => g.sends
      cleaned := match l with
        | .call _ o r => cleanedBy w.shared.table o r ++ g.cleaned
        | _ => g.cleaned }

/-- The observer knows the batch of every relay. -/
theorem tally_follows (ok : Tally → World Shared Session → Label Op Op.Out Exc → Prop) :
    tally.Follows relay batches Work.step {} Tally.work ok where
  start := fun _ => rfl
  next := fun _ _ _ => rfl
  possible := fun _ _ => trivial
  safe := by
    rintro p ⟨n, rfl⟩
    exact Contract.Safe.of_wp _ _ (batch_relayLoop n {})

/-- No recovery resets a row that a running relay holds. -/
def Considerate (g : Tally) (w : World Shared Session) : Label Op Op.Out Exc → Prop
  | .call _ (.recoverStuckRows cutoff) (.ok _) =>
      ∀ row ∈ w.shared.table, OutboxTable.isStuck cutoff row →
        ∀ i < w.size, ∀ held ∈ (g.work i).rows, held.id ≠ row.id
  | _ => True

/-- Whether a recovery leaves the rows of the batches alone is decidable. -/
instance (g : Tally) (w : World Shared Session) (l : Label Op Op.Out Exc) :
    Decidable (Considerate g w l) := by
  unfold Considerate
  split <;> infer_instance

end OutboxRelay

/-! ## The table -/

namespace OutboxTable

variable {table : OutboxTable} {row : QueuedRow} {rows : List QueuedRow}

/-- A claim changes no identifier. -/
theorem map_id_claim : (table.claim rows).map (·.id) = table.map (·.id) := by
  rw [claim, List.map_map]
  refine List.map_congr_left fun row _ => ?_
  dsimp only [Function.comp_apply]
  split <;> rfl

/-- A row that is not claimed stays as it is. -/
theorem mem_claim_of_not_mem (hrow : row ∈ table) (h : row.id ∉ rows.map (·.id)) :
    row ∈ table.claim rows :=
  List.mem_map.mpr ⟨row, hrow, if_neg h⟩

/-- A row that is claimed is then in the table as the relay holds it. -/
theorem claimed_mem_claim (hrow : row ∈ table) (h : row ∈ rows) :
    claimed row ∈ table.claim rows :=
  List.mem_map.mpr ⟨row, hrow, if_pos (List.mem_map_of_mem h)⟩

/-- Every row of the table after a claim was there before, unless it was claimed. -/
theorem mem_claim (h : row ∈ table.claim rows) :
    (row ∈ table ∧ row.id ∉ rows.map (·.id)) ∨
      ∃ r ∈ table, r.id ∈ rows.map (·.id) ∧ row = claimed r := by
  obtain ⟨r, hr, rfl⟩ := List.mem_map.mp h
  split
  · next hid => exact .inr ⟨r, hr, hid, rfl⟩
  · next hid => exact .inl ⟨hr, hid⟩

/-- Overwriting a row changes no identifier. -/
theorem map_id_merge (h : row.id ∈ table.map (·.id)) :
    (table.merge row).map (·.id) = table.map (·.id) := by
  rw [merge, if_pos h, List.map_map]
  refine List.map_congr_left fun r _ => ?_
  dsimp only [Function.comp_apply]
  split
  · next hid => exact hid.symm
  · rfl

/-- Overwriting a row leaves the other rows as they are. -/
theorem mem_merge (h : row.id ∈ table.map (·.id)) {r : QueuedRow} :
    r ∈ table.merge row ↔ r = row ∨ r ∈ table ∧ r.id ≠ row.id := by
  rw [merge, if_pos h, List.mem_map]
  constructor
  · rintro ⟨r', hr', rfl⟩
    split
    · exact .inl rfl
    · next hid => exact .inr ⟨hr', hid⟩
  · rintro (rfl | ⟨hr, hid⟩)
    · obtain ⟨r', hr', hid⟩ := List.mem_map.mp h
      exact ⟨r', hr', if_pos hid⟩
    · exact ⟨r, hr, if_neg hid⟩

/-- Confirming rows of the table changes no identifier. -/
theorem map_id_confirm (h : ∀ row ∈ rows, row.id ∈ table.map (·.id)) :
    (table.confirm rows).map (·.id) = table.map (·.id) := by
  induction rows generalizing table with
  | nil => rfl
  | cons row rows ih =>
      have hmerge := map_id_merge (h row List.mem_cons_self)
      rw [← hmerge]
      refine ih fun r hr => ?_
      rw [hmerge]
      exact h r (List.mem_cons_of_mem _ hr)

/-- Confirming rows of the table leaves the other rows as they are. -/
theorem mem_confirm (h : ∀ row ∈ rows, row.id ∈ table.map (·.id)) (hids : (rows.map (·.id)).Nodup)
    {r : QueuedRow} :
    r ∈ table.confirm rows ↔ r ∈ rows ∨ r ∈ table ∧ r.id ∉ rows.map (·.id) := by
  induction rows generalizing table with
  | nil => simp [confirm]
  | cons row rows ih =>
      -- the first row is merged, and the others find the table after that
      have hrow := h row List.mem_cons_self
      have hrest : ∀ r ∈ rows, r.id ∈ (table.merge row).map (·.id) := fun r hr => by
        rw [map_id_merge hrow]
        exact h r (List.mem_cons_of_mem _ hr)
      rw [List.map_cons, List.nodup_cons] at hids
      have hstep : r ∈ (table.merge row).confirm rows ↔ _ := ih hrest hids.2
      rw [show table.confirm (row :: rows) = (table.merge row).confirm rows from rfl, hstep,
        mem_merge hrow, List.map_cons, List.mem_cons, List.mem_cons, not_or]
      constructor
      · rintro (hr | ⟨rfl | ⟨hr, hid⟩, hnot⟩)
        · exact .inl (.inr hr)
        · exact .inl (.inl rfl)
        · exact .inr ⟨hr, hid, hnot⟩
      · rintro ((rfl | hr) | ⟨hr, hid, hnot⟩)
        · exact .inr ⟨.inl rfl, hids.1⟩
        · exact .inl hr
        · exact .inr ⟨.inr ⟨hr, hid⟩, hnot⟩

/-- A recovery changes no identifier. -/
theorem map_id_recoverStuckRows {cutoff : Time} :
    (table.recoverStuckRows cutoff).map (·.id) = table.map (·.id) := by
  rw [recoverStuckRows, List.map_map]
  refine List.map_congr_left fun row _ => ?_
  dsimp only [Function.comp_apply]
  split <;> rfl

/-- A row that is not stuck stays as it is. -/
theorem mem_recoverStuckRows {cutoff : Time} (hrow : row ∈ table) (h : ¬ isStuck cutoff row) :
    row ∈ table.recoverStuckRows cutoff :=
  List.mem_map.mpr ⟨row, hrow, if_neg h⟩

/-- A recovery that finds no stuck row changes nothing. -/
theorem recoverStuckRows_eq {cutoff : Time} (h : ∀ row ∈ table, isStuck cutoff row = false) :
    table.recoverStuckRows cutoff = table := by
  rw [recoverStuckRows]
  refine (List.map_congr_left fun row hrow => ?_).trans (List.map_id table)
  rw [h row hrow]
  rfl

/-- The rows that a cleanup leaves. -/
theorem mem_cleanupPublishedRows {publishedCutoff failedCutoff : Time} :
    row ∈ table.cleanupPublishedRows publishedCutoff failedCutoff ↔
      row ∈ table ∧ isOldPublished publishedCutoff row = false ∧
        isOldFailed failedCutoff row = false := by
  simp only [cleanupPublishedRows, List.mem_filter, Bool.not_eq_true', and_assoc]

end OutboxTable

/-! ## Held rows -/

namespace OutboxRelay

/-- The rows that the relays hold, and the rows that were cleaned up, against the table. -/
structure Held (work : ℕ → Work) (cleaned : List QueuedRow) (s : Shared) : Prop where
  /-- An identifier stands once in the table. -/
  ids : (s.table.map (·.id)).Nodup
  /-- The rows of the table come from services. -/
  known : ∀ row ∈ s.table, row.id ∈ s.committed.map (·.id)
  /-- A held row is in the table as it was claimed. -/
  held : ∀ i, ∀ row ∈ (work i).rows, row ∈ s.table ∧ row.status = .publishing
  /-- A relay holds a row once. -/
  distinct : ∀ i, ((work i).rows.map (·.id)).Nodup
  /-- No two relays hold the same row. -/
  apart : ∀ i j, i ≠ j → ∀ row ∈ (work i).rows, ∀ row' ∈ (work j).rows, row.id ≠ row'.id
  /-- A row that was cleaned up does not come back. -/
  cleaned : ∀ row ∈ cleaned,
    row.id ∈ s.committed.map (·.id) ∧ row.id ∉ s.table.map (·.id)

namespace Held

variable {work : ℕ → Work} {cleaned : List QueuedRow} {s : Shared}

/-- An identifier of the table determines the row. -/
theorem row_eq (h : Held work cleaned s) {row row' : QueuedRow} (hrow : row ∈ s.table)
    (hrow' : row' ∈ s.table) (hid : row.id = row'.id) : row = row' :=
  List.inj_on_of_nodup_map h.ids hrow hrow' hid

/-- A row of the table that is not being published is not held. -/
theorem not_held (h : Held work cleaned s) {row : QueuedRow} (hrow : row ∈ s.table)
    (hstatus : row.status ≠ .publishing) (i : ℕ) : ∀ held ∈ (work i).rows, held.id ≠ row.id := by
  intro held hheld hid
  obtain ⟨hmem, hpublishing⟩ := h.held i held hheld
  rw [h.row_eq hmem hrow hid] at hpublishing
  exact hstatus hpublishing

/-- A relay that lets go of rows disturbs nobody. -/
theorem shrink (h : Held work cleaned s) {i : ℕ} {w : Work} (hsub : w.rows ⊆ (work i).rows)
    (hdistinct : (w.rows.map (·.id)).Nodup) : Held (Function.update work i w) cleaned s := by
  have hrows : ∀ j, (Function.update work i w j).rows ⊆ (work j).rows := fun j => by
    by_cases hj : j = i
    · subst hj
      rwa [Function.update_self]
    · rw [Function.update_of_ne hj]
      exact List.Subset.refl _
  refine ⟨h.ids, h.known, fun j row hrow => h.held j row (hrows j hrow), fun j => ?_, ?_, h.cleaned⟩
  · by_cases hj : j = i
    · subst hj
      rwa [Function.update_self]
    · rw [Function.update_of_ne hj]
      exact h.distinct j
  · intro a b hab row hrow row' hrow'
    exact h.apart a b hab row (hrows a hrow) row' (hrows b hrow')

/-- A relay that ends or has confirmed its batch holds nothing. -/
theorem release (h : Held work cleaned s) (i : ℕ) : Held (Function.update work i {}) cleaned s :=
  h.shrink (List.nil_subset _) List.nodup_nil

/-- A relay goes on to hold rows that nobody else holds. -/
theorem take (h : Held work cleaned s) {i : ℕ} {w : Work}
    (hheld : ∀ row ∈ w.rows, row ∈ s.table ∧ row.status = .publishing)
    (hdistinct : (w.rows.map (·.id)).Nodup)
    (hfree : ∀ j, j ≠ i → ∀ row ∈ w.rows, ∀ row' ∈ (work j).rows, row.id ≠ row'.id) :
    Held (Function.update work i w) cleaned s := by
  refine ⟨h.ids, h.known, fun j => ?_, fun j => ?_, fun a b hab => ?_, h.cleaned⟩
  · by_cases hj : j = i
    · subst hj
      rwa [Function.update_self]
    · rw [Function.update_of_ne hj]
      exact h.held j
  · by_cases hj : j = i
    · subst hj
      rwa [Function.update_self]
    · rw [Function.update_of_ne hj]
      exact h.distinct j
  · -- one of the two relays may be the one that takes the rows
    by_cases ha : a = i
    · subst ha
      rw [Function.update_self, Function.update_of_ne (Ne.symm hab)]
      exact hfree b (Ne.symm hab)
    · rw [Function.update_of_ne ha]
      by_cases hb : b = i
      · subst hb
        rw [Function.update_self]
        exact fun row hrow row' hrow' hid => hfree a hab row' hrow' row hrow hid.symm
      · rw [Function.update_of_ne hb]
        exact h.apart a b hab

/-- A change of the table that keeps the identifiers and the held rows. -/
theorem withTable (h : Held work cleaned s) {table : OutboxTable}
    (hids : table.map (·.id) = s.table.map (·.id))
    (hkept : ∀ i, ∀ row ∈ (work i).rows, row ∈ table) :
    Held work cleaned { s with table := table } where
  ids := by
    rw [hids]
    exact h.ids
  known := fun row hrow => by
    have hmem : row.id ∈ s.table.map (·.id) := hids ▸ List.mem_map_of_mem hrow
    obtain ⟨row', hrow', hid⟩ := List.mem_map.mp hmem
    rw [← hid]
    exact h.known row' hrow'
  held := fun i row hrow => ⟨hkept i row hrow, (h.held i row hrow).2⟩
  distinct := h.distinct
  apart := h.apart
  cleaned := fun row hrow => by
    rw [hids]
    exact h.cleaned row hrow

/-- Acknowledgements do not matter. -/
theorem acknowledge (h : Held work cleaned s) (acked : List KafkaMessage) :
    Held work cleaned { s with acked := acked } :=
  ⟨h.ids, h.known, h.held, h.distinct, h.apart, h.cleaned⟩

/-- Claimed rows are held by the relay that has claimed them. -/
theorem claim (h : Held work cleaned s) {i : ℕ} {rows : List QueuedRow} {limit : ℕ}
    (hrows : s.table.Claimable rows limit) :
    Held (Function.update work i ⟨rows.map OutboxTable.claimed, []⟩) cleaned
      { s with table := s.table.claim rows } := by
  -- nobody holds a row that is pending
  have hfree : ∀ j, ∀ held ∈ (work j).rows, held.id ∉ rows.map (·.id) := by
    intro j held hheld hid
    obtain ⟨row, hrow, hid⟩ := List.mem_map.mp hid
    obtain ⟨hmem, hpending⟩ := hrows.pending row hrow
    exact h.not_held hmem (by rw [hpending]; decide) j held hheld hid.symm
  have htable : Held work cleaned { s with table := s.table.claim rows } :=
    h.withTable OutboxTable.map_id_claim fun j held hheld =>
      OutboxTable.mem_claim_of_not_mem (h.held j held hheld).1 (hfree j held hheld)
  refine htable.take (fun row hrow => ?_) ?_ fun j _ row hrow held hheld hid => ?_
  · obtain ⟨r, hr, rfl⟩ := List.mem_map.mp hrow
    exact ⟨OutboxTable.claimed_mem_claim (hrows.pending r hr).1 hr, rfl⟩
  · have hids : (Work.mk (rows.map OutboxTable.claimed) []).rows.map (·.id) = rows.map (·.id) := by
      simp [Work.rows, OutboxTable.claimed]
    rw [hids]
    exact hrows.distinct
  · obtain ⟨r, hr, rfl⟩ := List.mem_map.mp hrow
    exact hfree j held hheld (List.mem_map.mpr ⟨r, hr, hid⟩)

/-- Rows with the identifiers of held rows are in the table. -/
theorem mem_ids (h : Held work cleaned s) {i : ℕ} {rows : List QueuedRow}
    (hrows : ∀ row ∈ rows, ∃ held ∈ (work i).rows, held.id = row.id) :
    ∀ row ∈ rows, row.id ∈ s.table.map (·.id) := by
  intro row hrow
  obtain ⟨held, hheld, hid⟩ := hrows row hrow
  exact hid ▸ List.mem_map_of_mem (h.held i held hheld).1

/-- A relay that confirms rows that it holds overwrites only these. -/
theorem confirm (h : Held work cleaned s) {i : ℕ} {rows : List QueuedRow}
    (hrows : ∀ row ∈ rows, ∃ held ∈ (work i).rows, held.id = row.id)
    (hdistinct : (rows.map (·.id)).Nodup) :
    Held (Function.update work i {}) cleaned { s with table := s.table.confirm rows } := by
  have hids := h.mem_ids hrows
  refine (h.release i).withTable (OutboxTable.map_id_confirm hids) fun j held hheld => ?_
  by_cases hj : j = i
  · subst hj
    rw [Function.update_self] at hheld
    exact absurd hheld List.not_mem_nil
  · rw [Function.update_of_ne hj] at hheld
    refine (OutboxTable.mem_confirm hids hdistinct).mpr (.inr ⟨(h.held j held hheld).1, ?_⟩)
    intro hmem
    obtain ⟨row, hrow, hid⟩ := List.mem_map.mp hmem
    obtain ⟨own, hown, hid'⟩ := hrows row hrow
    exact h.apart i j (Ne.symm hj) own hown held hheld (hid'.trans hid)

/-- A recovery that resets no held row. -/
theorem recoverStuckRows (h : Held work cleaned s) {cutoff : Time}
    (hok : ∀ row ∈ s.table, OutboxTable.isStuck cutoff row →
      ∀ i, ∀ held ∈ (work i).rows, held.id ≠ row.id) :
    Held work cleaned { s with table := s.table.recoverStuckRows cutoff } :=
  h.withTable OutboxTable.map_id_recoverStuckRows fun i held hheld =>
    OutboxTable.mem_recoverStuckRows (h.held i held hheld).1 fun hstuck =>
      hok held (h.held i held hheld).1 hstuck i held hheld rfl

/-- A cleanup deletes no held row. -/
theorem cleanupPublishedRows (h : Held work cleaned s) (publishedCutoff failedCutoff : Time)
    (dropped : List QueuedRow) :
    Held work (cleanedBy s.table (.cleanupPublishedRows publishedCutoff failedCutoff)
      (.ok ()) ++ cleaned)
      { s with
        table := s.table.cleanupPublishedRows publishedCutoff failedCutoff
        dropped := dropped } where
  ids := h.ids.sublist (List.Sublist.map _ (List.filter_sublist.trans List.filter_sublist))
  known := fun row hrow => h.known row (OutboxTable.mem_cleanupPublishedRows.mp hrow).1
  held := fun i row hrow => by
    obtain ⟨hmem, hstatus⟩ := h.held i row hrow
    -- only published and failed rows are deleted, and a held row is neither
    refine ⟨OutboxTable.mem_cleanupPublishedRows.mpr ⟨hmem, ?_, ?_⟩, hstatus⟩
    · simp [OutboxTable.isOldPublished, hstatus]
    · simp [OutboxTable.isOldFailed, hstatus]
  distinct := h.distinct
  apart := h.apart
  cleaned := fun row hrow => by
    rcases List.mem_append.mp hrow with hrow | hrow
    · -- a row that is deleted now is not among those that stay
      obtain ⟨hmem, hold⟩ := List.mem_filter.mp hrow
      refine ⟨h.known row hmem, fun hid => ?_⟩
      obtain ⟨row', hrow', hid⟩ := List.mem_map.mp hid
      obtain ⟨hmem', hpublished, hfailed⟩ := OutboxTable.mem_cleanupPublishedRows.mp hrow'
      rw [h.row_eq hmem' hmem hid] at hpublished hfailed
      rw [hpublished, hfailed] at hold
      cases hold
    · obtain ⟨hknown, hgone⟩ := h.cleaned row hrow
      refine ⟨hknown, fun hid => hgone ?_⟩
      obtain ⟨row', hrow', hid⟩ := List.mem_map.mp hid
      exact hid ▸ List.mem_map_of_mem (OutboxTable.mem_cleanupPublishedRows.mp hrow').1

/-- A service commits a new row. -/
theorem insert (h : Held work cleaned s) {s' : Shared} (hs' : Inserts s s') :
    Held work cleaned s' := by
  obtain ⟨event, createdAt, hfresh, rfl⟩ := hs'
  -- the identifier of the new row is fresh, so that it differs from those of all that is held
  refine ⟨?_, fun row hrow => ?_, fun i row hrow => ?_, h.distinct, h.apart, fun row hrow => ?_⟩
  · rw [List.map_append, List.nodup_append]
    refine ⟨h.ids, List.nodup_singleton _, fun a ha b hb hab => ?_⟩
    obtain ⟨row, hrow, rfl⟩ := List.mem_map.mp ha
    rw [List.map_singleton, List.mem_singleton] at hb
    exact hfresh (hb ▸ hab ▸ h.known row hrow)
  · rcases List.mem_append.mp hrow with hrow | hrow
    · exact List.mem_cons_of_mem _ (h.known row hrow)
    · rw [List.mem_singleton.mp hrow]
      exact List.mem_cons_self
  · exact ⟨List.mem_append_left _ (h.held i row hrow).1, (h.held i row hrow).2⟩
  · obtain ⟨hknown, hgone⟩ := h.cleaned row hrow
    refine ⟨List.mem_cons_of_mem _ hknown, fun hid => ?_⟩
    rw [List.map_append, List.mem_append, List.map_singleton, List.mem_singleton] at hid
    rcases hid with hid | hid
    · exact hgone hid
    · exact hfresh (hid ▸ hknown)

end Held

/-! ## Runs -/

/-- Sending a row does not change what the relay holds. -/
theorem Work.send_perm (w : Work) (success : Bool) : (w.send success).rows.Perm w.rows := by
  obtain ⟨todo, sent⟩ := w
  cases todo with
  | nil => exact .refl _
  | cons row todo => exact List.perm_middle.symm

/-- Taking an attempt back keeps the rows of the batch. -/
theorem Work.retract_rows (w : Work) : w.retract.rows = w.rows := by
  obtain ⟨todo, sent⟩ := w
  cases sent <;> rfl

/-- A row is written back as the event that it is. -/
theorem Settles.toOutboxRow_eq {sent : QueuedRow × Bool} {row : QueuedRow} (h : Settles sent row) :
    row.toOutboxRow = sent.1.toOutboxRow := by
  unfold Settles at h
  split at h
  · obtain ⟨_, rfl⟩ := h
    rfl
  · rw [h, sendFailed]
    dsimp only
    split <;> rfl

/-- A row is settled under its identifier. -/
theorem Settles.id_eq {sent : QueuedRow × Bool} {row : QueuedRow} (h : Settles sent row) :
    row.id = sent.1.id :=
  congrArg OutboxRow.id h.toOutboxRow_eq

/-- A row is settled with its topic. -/
theorem Settles.topic_eq {sent : QueuedRow × Bool} {row : QueuedRow} (h : Settles sent row) :
    row.topic = sent.1.topic :=
  congrArg OutboxRow.topic h.toOutboxRow_eq

/-- A row is written back with its date. -/
theorem Settles.createdAt_eq {sent : QueuedRow × Bool} {row : QueuedRow} (h : Settles sent row) :
    row.createdAt = sent.1.createdAt := by
  unfold Settles at h
  split at h
  · obtain ⟨_, rfl⟩ := h
    rfl
  · rw [h, sendFailed]
    dsimp only
    split <;> rfl

/-- No row is written back as `publishing`. -/
theorem Settles.not_publishing {sent : QueuedRow × Bool} {row : QueuedRow} (h : Settles sent row) :
    row.status ≠ .publishing := by
  unfold Settles at h
  split at h
  · obtain ⟨_, rfl⟩ := h
    exact fun hstatus => nomatch hstatus
  · rw [h, sendFailed]
    dsimp only
    split <;> exact fun hstatus => nomatch hstatus

/-- A row that is written back comes from a row that was sent. -/
theorem exists_settles {sent : List (QueuedRow × Bool)} {rows : List QueuedRow}
    (h : List.Forall₂ Settles sent rows) {row : QueuedRow} (hrow : row ∈ rows) :
    ∃ p ∈ sent, Settles p row := by
  induction h with
  | nil => cases hrow
  | cons hsettles _ ih =>
      rcases List.mem_cons.mp hrow with rfl | hrow
      · exact ⟨_, List.mem_cons_self, hsettles⟩
      · obtain ⟨p, hp, hsettles⟩ := ih hrow
        exact ⟨p, List.mem_cons_of_mem _ hp, hsettles⟩

/-- The rows of a batch are written back under their identifiers. -/
theorem map_id_of_settles {sent : List (QueuedRow × Bool)} {rows : List QueuedRow}
    (h : List.Forall₂ Settles sent rows) : rows.map (·.id) = sent.map (·.1.id) := by
  induction h with
  | nil => rfl
  | cons hrow _ ih => rw [List.map_cons, List.map_cons, hrow.id_eq, ih]

/-- The rows that a relay confirms are the ones that it holds. -/
theorem map_id_of_confirm {w : Work} {rows : List QueuedRow}
    (h : batches.guard (.confirm rows) w) : rows.map (·.id) = (w.rows.map (·.id)).reverse := by
  obtain ⟨htodo, hsettles⟩ := h
  rw [map_id_of_settles hsettles, Work.rows, htodo, List.append_nil, List.map_map, List.map_reverse]
  rfl

/-- Every row that a relay confirms is one that it holds. -/
theorem exists_held_of_confirm {w : Work} {rows : List QueuedRow}
    (h : batches.guard (.confirm rows) w) {row : QueuedRow} (hrow : row ∈ rows) :
    ∃ held ∈ w.rows, held.id = row.id := by
  have hmem : row.id ∈ w.rows.map (·.id) := by
    rw [← List.mem_reverse, ← map_id_of_confirm h]
    exact List.mem_map_of_mem hrow
  exact List.mem_map.mp hmem

/-- A relay that holds each row once confirms each row once. -/
theorem nodup_of_confirm {w : Work} {rows : List QueuedRow}
    (h : batches.guard (.confirm rows) w) (hdistinct : (w.rows.map (·.id)).Nodup) :
    (rows.map (·.id)).Nodup := by
  rw [map_id_of_confirm h]
  exact List.nodup_reverse.mpr hdistinct

/-- A step of a relay keeps the bookkeeping of held rows. -/
theorem Held.effect {work : ℕ → Work} {cleaned : List QueuedRow} {s : Shared}
    (h : Held work cleaned s) {i : ℕ} {o : Op} {r : Except Exc o.Out}
    (hguard : batches.guard o (work i)) (hends : Ends s o r)
    (hok : ∀ cutoff, o = .recoverStuckRows cutoff → (∃ a, r = .ok a) → ∀ row ∈ s.table,
      OutboxTable.isStuck cutoff row → ∀ i, ∀ held ∈ (work i).rows, held.id ≠ row.id) :
    Held (Function.update work i (Work.step o r (work i))) (cleanedBy s.table o r ++ cleaned)
      (OutboxRelay.effect o r s) := by
  -- what the relay holds stays the same up to the order
  have hsend : ∀ success, Held (Function.update work i ((work i).send success)) cleaned s :=
    fun success => by
      have hperm := (work i).send_perm success
      exact h.shrink hperm.subset ((hperm.map _).nodup_iff.mpr (h.distinct i))
  have hsame : Held (Function.update work i (work i)) cleaned s := by
    rwa [Function.update_eq_self]
  cases r with
  | error e =>
      cases o with
      | sendAndWait message =>
          cases e with
          | kafkaError => exact hsend false
          | other => exact h.release i
      | now =>
          cases e with
          | kafkaError =>
              have hrows := (work i).retract_rows
              exact h.shrink (hrows ▸ List.Subset.refl _) (hrows ▸ h.distinct i)
          | other => exact h.release i
      | _ => cases e <;> exact h.release i
  | ok a =>
      cases o with
      | claim => exact h.claim hends
      | confirm rows =>
          exact h.confirm (fun row hrow => exists_held_of_confirm hguard hrow)
            (nodup_of_confirm hguard (h.distinct i))
      | recoverStuckRows cutoff =>
          exact hsame.recoverStuckRows (by simpa using hok cutoff rfl ⟨a, rfl⟩)
      | cleanupPublishedRows publishedCutoff failedCutoff =>
          exact hsame.cleanupPublishedRows publishedCutoff failedCutoff _
      | sendAndWait message => exact (hsend true).acknowledge _
      | monotonic | now | sleep _ => exact hsame

/-- A relay that sends a message has a row to send. -/
theorem exists_todo {message : KafkaMessage} {w : Work}
    (h : batches.guard (.sendAndWait message) w) :
    ∃ row rest, w.todo = row :: rest ∧ row.message = message := by
  obtain ⟨todo, sent⟩ := w
  cases todo with
  | nil => cases h
  | cons row rest => exact ⟨row, rest, rfl, Option.some.inj h⟩

/-- In every run Kafka has acknowledged the messages of the rows that were sent with success. -/
theorem acked_eq {ok : Tally → World Shared Session → Label Op Op.Out Exc → Prop} {s : Shared}
    (hs : s.acked = []) {g : Tally} {c : Config Op Op.Out Exc Unit Shared Session}
    (h : Observes tally relay ok s g c) :
    c.shared.acked = (g.sends.filter (·.2)).map (·.1.message) := by
  refine h.sustained (I := fun g w => w.shared.acked = (g.sends.filter (·.2)).map (·.1.message))
    (tally_follows ok) ?_ hs
  constructor
  · exact fun _ _ hacked => hacked
  · intro g c i o r hcall hacked
    cases r with
    | ok a =>
        cases o with
        -- the message is appended to what Kafka has acknowledged
        | sendAndWait message =>
            obtain ⟨row, rest, htodo, rfl⟩ := exists_todo hcall.guard
            simp [tally, Work.sending, htodo, afterCall, relay, OutboxRelay.effect, hacked]
        | _ => exact hacked
    | error e =>
        cases o with
        | sendAndWait message =>
            obtain ⟨row, rest, htodo, rfl⟩ := exists_todo hcall.guard
            cases e with
            -- Kafka may have stored the message or not, and the row counts as not sent
            | kafkaError =>
                simp [tally, Work.sending, htodo, afterCall, relay, OutboxRelay.effect, hacked]
            | other => exact hacked
        | _ => exact hacked
  · exact fun _ _ hacked => hacked
  · rintro g c _ _ _ hacked ⟨event, createdAt, _, rfl⟩
    exact hacked

/-- The rows of the table are distinct and come from services. -/
structure Tidy (s : Shared) : Prop where
  ids : (s.table.map (·.id)).Nodup
  known : ∀ row ∈ s.table, row.id ∈ s.committed.map (·.id)

/-- At the start nobody holds anything. -/
theorem Tidy.held {s : Shared} (hs : Tidy s) : Held (fun _ => {}) [] s :=
  ⟨hs.ids, hs.known, fun _ _ hrow => absurd hrow List.not_mem_nil, fun _ => List.nodup_nil,
    fun _ _ _ _ hrow => absurd hrow List.not_mem_nil,
    fun _ hrow => absurd hrow List.not_mem_nil⟩

/-- The bookkeeping of held rows is an invariant while no recovery resets a held row. -/
theorem held {s : Shared} (hs : Tidy s) {g : Tally} {c : Config Op Op.Out Exc Unit Shared Session}
    (h : Observes tally relay Considerate s g c) : Held g.work g.cleaned c.shared := by
  refine h.sustained (I := fun g w => Held g.work g.cleaned w.shared)
    (tally_follows Considerate) ?_ ?_
  · constructor
    · exact fun _ _ hheld => hheld
    · intro g c i o r hcall hheld
      refine hheld.effect hcall.guard hcall.enabled ?_
      rintro cutoff rfl ⟨a, rfl⟩ row hrow hstuck j held hmem
      -- a relay that has not been started holds nothing
      by_cases hj : j < c.size
      · exact hcall.allowed row hrow hstuck j hj held hmem
      · have hidle := (hcall.observes.safe (tally_follows Considerate)).1 j (not_lt.mp hj)
        rw [hidle] at hmem
        exact absurd hmem List.not_mem_nil
    · exact fun _ _ hheld => hheld.release _
    · exact fun _ _ hheld hs' => hheld.insert hs'
  · exact hs.held

end OutboxRelay

/-! ## Schedules with clocks -/

/-- What a schedule of the relays settles, with the clocks. -/
inductive ClockHint
  | plain (hint : RelayHint)
  /-- A relay is started for a number of iterations. -/
  | loops (n : ℕ)
  /-- What `time.monotonic()` returns. -/
  | seconds (at_ : ℚ)
  /-- What `datetime.now` returns. -/
  | time (at_ : Time)

/-- The operation succeeds, and all clocks stand still. -/
def ClockHint.auto : ClockHint := .plain .auto

/-- Kafka does not accept the message. -/
def ClockHint.refused : ClockHint := .plain (.fail .kafkaError)

/-- The schedules of the relays, with the clocks. -/
def clockPlayer : relay.Player ClockHint where
  spawn := fun hint =>
    match hint with
    | .loops n => some ⟨OutboxRelay.relayLoop n {}, n, rfl⟩
    | _ => none
  call := fun hint i o w =>
    match hint, o with
    | .plain hint, o => relayPlayer.call hint i o w
    | .seconds at_, .monotonic => some ⟨.ok at_, trivial⟩
    | .time at_, .now => some ⟨.ok at_, trivial⟩
    | _, _ => none
  env := fun hint s =>
    match hint with
    | .plain hint => relayPlayer.env hint s
    | _ => none

end MiniWallet

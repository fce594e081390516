import MiniWallet.Safety.Batches
import MiniWallet.Safety.Delivery

/-!
# A confirmed delivery is not undone

The life of an outbox row leads from `publishing` to `published`, and then out of the table. As long
as no recovery resets a row that a running relay holds, a row that is published stays as it is until
it is cleaned up, and a row that was cleaned up does not come back. When a recovery does take a row
away from a relay, that relay later overwrites what another one has confirmed.

* `confirmed_kept`: the guarantee, between any two points of a run.
* `confirmed_undone`: a run in which a published row goes back to `pending`.
-/

namespace MiniWallet

open Process System OutboxRelay

namespace OutboxRelay

/-- The published rows of a table have stayed as they were, or were cleaned up. -/
def Kept (before after : OutboxTable) (cleaned : List QueuedRow) : Prop :=
  ∀ row ∈ before, row.status = .published →
    (row ∈ after ∨ row ∈ cleaned) ∧ ∀ r ∈ after, r.id = row.id → r = row

/-- No row that was cleaned up is in the table. -/
def Gone (cleaned : List QueuedRow) (table : OutboxTable) : Prop :=
  ∀ row ∈ cleaned, ∀ r ∈ table, r.id ≠ row.id

/-- An operation of a relay leaves a published row alone, or cleans it up. -/
theorem Held.published {work : ℕ → Work} {cleaned : List QueuedRow} {s : Shared}
    (h : Held work cleaned s) {i : ℕ} {o : Op} {r : Except Exc o.Out}
    (hguard : batches.guard o (work i)) (hends : Ends s o r) {row : QueuedRow}
    (hrow : row ∈ s.table) (hstatus : row.status = .published) :
    row ∈ (OutboxRelay.effect o r s).table ∨ row ∈ cleanedBy s.table o r := by
  cases r with
  | error e => cases o <;> exact .inl hrow
  | ok a =>
      cases o with
      | claim =>
          refine .inl (OutboxTable.mem_claim_of_not_mem hrow fun hid => ?_)
          obtain ⟨r, hr, hid⟩ := List.mem_map.mp hid
          obtain ⟨hmem, hpending⟩ := hends.pending r hr
          rw [h.row_eq hmem hrow hid, hstatus] at hpending
          cases hpending
      | confirm rows =>
          have hids := h.mem_ids fun r hr => exists_held_of_confirm hguard hr
          have hdistinct := nodup_of_confirm hguard (h.distinct i)
          refine .inl ((OutboxTable.mem_confirm hids hdistinct).mpr (.inr ⟨hrow, fun hid => ?_⟩))
          -- the relay holds the rows it confirms, and a published row is not held
          obtain ⟨r, hr, hid⟩ := List.mem_map.mp hid
          obtain ⟨held, hmem, hid'⟩ := exists_held_of_confirm hguard hr
          exact h.not_held hrow (by rw [hstatus]; decide) i held hmem (hid'.trans hid)
      | recoverStuckRows cutoff =>
          exact .inl
            (OutboxTable.mem_recoverStuckRows hrow (by simp [OutboxTable.isStuck, hstatus]))
      | cleanupPublishedRows publishedCutoff failedCutoff =>
          by_cases hold : OutboxTable.isOldPublished publishedCutoff row
          · exact .inr (List.mem_filter.mpr ⟨hrow, by simp [hold]⟩)
          · refine .inl (OutboxTable.mem_cleanupPublishedRows.mpr ⟨hrow, by simpa using hold, ?_⟩)
            simp [OutboxTable.isOldFailed, hstatus]
      | monotonic | now | sleep _ | sendAndWait _ => exact .inl hrow

/-- A published row stays in the table or is cleaned up, in every step. -/
theorem published_sustained {s : Shared} (hs : Tidy s) {row : QueuedRow}
    (hstatus : row.status = .published) :
    Observes.Sustains tally relay batches Tally.work Considerate s
      fun g w => row ∈ w.shared.table ∨ row ∈ g.cleaned where
  spawn := fun _ _ h => h
  call := by
    intro g c i o r hcall h
    rcases h with hrow | hrow
    · rcases (held hs hcall.observes).published hcall.guard hcall.enabled hrow hstatus with h | h
      · exact .inl h
      · exact .inr (List.mem_append_left _ h)
    · exact .inr (List.mem_append_right _ hrow)
  stop := fun _ _ h => h
  env := by
    rintro g c _ _ _ h ⟨event, createdAt, _, rfl⟩
    exact h.imp_left (List.mem_append_left _)

end OutboxRelay

/-- Between any two points of a run in which no recovery resets a row that a running relay holds,
the published rows stay as they are until they are cleaned up, and rows that were cleaned up do not
come back. -/
theorem confirmed_kept {g g' : Tally}
    {c c' : Config OutboxRelay.Op OutboxRelay.Op.Out OutboxRelay.Exc Unit
      OutboxRelay.Shared OutboxRelay.Session}
    (h : Observes tally relay Considerate {} g c)
    (h' : Continues tally relay Considerate g c g' c') :
    OutboxRelay.Kept c.shared.table c'.shared.table g'.cleaned ∧
    Gone g'.cleaned c'.shared.table := by
  have hs : Tidy {} := ⟨List.nodup_nil, fun row hrow => absurd hrow List.not_mem_nil⟩
  have hheld := held hs (h.trans h')
  have hgone : Gone g'.cleaned c'.shared.table := fun row hrow r hr hid =>
    (hheld.cleaned row hrow).2 (hid ▸ List.mem_map_of_mem hr)
  refine ⟨fun row hrow hstatus => ?_, hgone⟩
  have hkept := Continues.sustained (tally_follows Considerate)
    (published_sustained hs hstatus) h (.inl hrow) h'
  refine ⟨hkept, fun r hr hid => ?_⟩
  rcases hkept with hmem | hcleaned
  · exact hheld.row_eq hr hmem hid
  · exact absurd hid (hgone row hcleaned r hr)

/-- An event is committed, and a relay publishes it. -/
def publication : List (Move ClockHint) :=
  [.env (.plain (.insert (sampleEvent 1))), .spawn (.loops 1), .call 0 (.seconds 0), .call 0 .auto,
    .call 0 .auto, .call 0 .auto, .call 0 .auto]

/-- Eight days later another relay starts with its periodic maintenance. -/
def maintenance : List (Move ClockHint) :=
  [.spawn (.loops 1), .call 1 (.seconds 86401), .call 1 (.time (days 8)), .call 1 .auto,
    .call 1 (.time (days 8)), .call 1 (.time (days 8)), .call 1 .auto]

/-- A row that was confirmed stays confirmed over a recovery. -/
theorem confirmed_kept_maintenance :
    ∃ (g g' : Tally) (c c' : Config OutboxRelay.Op OutboxRelay.Op.Out OutboxRelay.Exc Unit
      OutboxRelay.Shared OutboxRelay.Session),
      Observes tally relay Considerate {} g c ∧ Continues tally relay Considerate g c g' c' ∧
      (∃ row ∈ c.shared.table, row.status = .published) ∧ c'.shared.table = [] ∧
      OutboxRelay.Kept c.shared.table c'.shared.table g'.cleaned ∧
      Gone g'.cleaned c'.shared.table := by
  have hplay : (observe tally Considerate clockPlayer {} (relay.initial {}) publication).any
    (fun p =>
      decide (∃ row ∈ p.2.shared.table, row.status = .published) &&
        (observe tally Considerate clockPlayer p.1 p.2 maintenance).any fun q =>
          decide (q.2.shared.table = [])) = true := by
    decide +kernel
  -- the two parts of the run are played one after the other
  obtain ⟨⟨g, c⟩, hc, hP⟩ := (Option.any_eq_true _ _).mp hplay
  rw [Bool.and_eq_true] at hP
  obtain ⟨⟨g', c'⟩, hc', hempty⟩ := (Option.any_eq_true _ _).mp hP.2
  have h := observes_of_observe .start hc
  have h' := continues_of_observe .refl hc'
  exact ⟨g, g', c, c', h, h', of_decide_eq_true hP.1, of_decide_eq_true hempty, confirmed_kept h h'⟩

/-- A relay has claimed a row that was committed a while ago. The recovery of another relay resets
it, and that relay claims and publishes it. -/
def overtaken : List (Move ClockHint) :=
  [.env (.plain (.insert (sampleEvent 1))), .spawn (.loops 1), .call 0 (.seconds 0), .call 0 .auto,
    .spawn (.loops 1), .call 1 (.seconds 301), .call 1 (.time (minutes 5 + 1)), .call 1 .auto,
    .call 1 .auto, .call 1 .auto, .call 1 .auto, .call 1 .auto]

/-- Kafka does not accept the message of the first relay, which writes the row back as it sees
it. -/
def latecomer : List (Move ClockHint) := [.call 0 .refused, .call 0 .auto]

/-- A row that one relay has published goes back to `pending` when another relay confirms it. -/
theorem confirmed_undone :
    ¬ ∀ {g g' : Tally} {c c' : Config OutboxRelay.Op OutboxRelay.Op.Out OutboxRelay.Exc Unit
      OutboxRelay.Shared OutboxRelay.Session},
      Observes tally relay anyObserved {} g c → Continues tally relay anyObserved g c g' c' →
      OutboxRelay.Kept c.shared.table c'.shared.table g'.cleaned ∧
      Gone g'.cleaned c'.shared.table := by
  intro hkept
  have hplay : (observe tally anyObserved clockPlayer {} (relay.initial {}) overtaken).any (fun p =>
      (observe tally anyObserved clockPlayer p.1 p.2 latecomer).any fun q =>
        decide (∃ row ∈ p.2.shared.table, row.status = .published ∧
          ∃ r ∈ q.2.shared.table, r.id = row.id ∧ r.status = .pending)) = true := by
    decide +kernel
  obtain ⟨⟨g, c⟩, hc, hP⟩ := (Option.any_eq_true _ _).mp hplay
  obtain ⟨⟨g', c'⟩, hc', hP⟩ := (Option.any_eq_true _ _).mp hP
  -- the row that was published is `pending` in the second part
  obtain ⟨row, hrow, hstatus, r, hr, hid, hpending⟩ := of_decide_eq_true hP
  have h := observes_of_observe .start hc
  have h' := continues_of_observe .refl hc'
  obtain ⟨-, hsame⟩ := (hkept h h').1 row hrow hstatus
  rw [hsame r hr hid, hstatus] at hpending
  cases hpending

end MiniWallet

import MiniWallet.Safety.Reconciliation
import MiniWallet.Safety.TransactionalOutbox
import MiniWallet.Schema.Identifiers

/-!
# One resolution for each withdrawal

A sweep collects the withdrawals that are stuck and releases their rows before it resolves them, so
several sweeps can hold the same identifier. Each of them reads the row again under lock, and all
that it writes about the row stands or falls with one commit. As long as the process that created a
withdrawal has stopped before the first of these reads, the withdrawal is resolved once.

* `HandlerStopped`: the condition on a step, for one withdrawal.
* `Database.resolutions`: the resolutions of a withdrawal that the outbox reports.
* `resolutions_eq`: the outbox reports what the status of the row says.
* `resolved_once`: there is at most one resolution, and after it nothing about the withdrawal
  changes.
-/

namespace MiniWallet

open Numeric Bookkeeping Process System State

variable {sha256 : String → String} {t₀ : Time} {ok : State → Event → Prop} {c : Wallet} {id : UUID}

/-! ## The condition -/

/-- The step is not an operation of the process that created the withdrawal, once the withdrawal has
been read again: its request handler has stopped for good by then, wherever it was. -/
def HandlerStopped (id : UUID) (w : State) : Event → Prop
  | .call i _ _ => (w.sess i).owns id → id ∉ w.shared.reread
  | .spawn | .stop _ | .env => True

/-- Whether a step is none of a stopped handler is decidable. -/
instance (id : UUID) (w : State) (l : Event) : Decidable (HandlerStopped id w l) :=
  match l with
  | .call i _ _ => inferInstanceAs (Decidable ((w.sess i).owns id → id ∉ w.shared.reread))
  | .spawn | .stop _ | .env => isTrue trivial

/-- A creator that has stopped does not write late. -/
theorem Commits.not_writesLate_of_stopped {i : ℕ} {T : Transaction}
    (hT : Commits sha256 t₀ ok c i T) (hok : ∀ w l, ok w l → HandlerStopped id w l) :
    ¬ WritesLate c.toWorld i id := by
  rintro ⟨-, howns, hover⟩
  have hreread : id ∈ c.shared.reread := overtaken_reread hT.run id hover
  exact hok _ _ hT.allowed howns hreread

/-! ## Resolutions -/

/-- The event says that the withdrawal has completed or failed. -/
def EventPayload.resolves (id : UUID) : EventPayload → Bool
  | withdrawalCompleted p => p.withdrawalId == id.str
  | withdrawalFailed p => p.withdrawalId == id.str
  | _ => false

/-- What is to be reported about a withdrawal with the given status: nothing while it is open, and
its end once. -/
def WithdrawalStatus.resolution : WithdrawalStatus → List String
  | pending | submitted => []
  | completed => ["withdrawal.completed"]
  | failed => ["withdrawal.failed"]

/-- An open withdrawal has no resolution. -/
theorem WithdrawalStatus.resolution_of_open {s : WithdrawalStatus} (h : ¬ s.Terminal) :
    s.resolution = [] := by
  cases s with
  | pending | submitted => rfl
  | completed => exact absurd (.inl rfl) h
  | failed => exact absurd (.inr rfl) h

/-- There is at most one resolution. -/
theorem WithdrawalStatus.length_resolution (s : WithdrawalStatus) : s.resolution.length ≤ 1 := by
  cases s <;> decide

namespace Database

variable (db : Database)

/-- The resolutions of a withdrawal that the outbox reports, by the types of their events. -/
def resolutions (id : UUID) : List String :=
  (db.outbox.filter (·.payload.payload.resolves id)).map (·.eventType)

/-- The ledger legs of a withdrawal. -/
def legsOf (id : UUID) : List (LedgerEntry Ticks) :=
  db.ledgerEntries.filter (·.referenceId = some id)

/-- The resolutions after a transaction: those of its own event come first. -/
theorem resolutions_post (T : Transaction) : (db.applyAll T.writes).resolutions id =
    (T.events.filter (·.payload.payload.resolves id)).map (·.eventType) ++ db.resolutions id := by
  rw [resolutions, outbox_post, List.filter_append, List.map_append, resolutions]

end Database

section Narrated

variable {σ : Session} {T : Transaction}

/-- A transaction resolves only a withdrawal that it updates. -/
theorem Narrated.updates_of_resolves (h : Narrated σ T) {o : OutboxRow} (ho : o ∈ T.events)
    (hres : o.payload.payload.resolves id) : ∃ u ∈ T.updates, u.1 = id := by
  cases h with
  | completed _ _ hevent | compensated _ hevent =>
      obtain rfl := List.mem_singleton.mp ho
      rw [hevent.payload] at hres
      exact ⟨_, rfl, UUID.str_injective (beq_iff_eq.mp hres)⟩
  | empty | submitted => cases ho
  | reserved hevent | opened _ hevent | seeded _ hevent | transferFailed _ hevent
  | transferred _ hevent | depositRejected _ hevent | deposited _ hevent =>
      obtain rfl := List.mem_singleton.mp ho
      rw [hevent.payload] at hres
      cases hres

/-- A transaction that completes a withdrawal says so in its update. -/
theorem Justified.status_of_completed {before : List WithdrawalSet} {set : WithdrawalSet}
    {event : OutboxRow} (h : Justified σ (.completed id before set event)) :
    set.status = .completed := by
  cases h with
  | completed _ _ _ _ hset | recoveredCompleted _ _ hset => exact hset

/-- A transaction that compensates for a withdrawal says so in its update. -/
theorem Justified.status_of_compensated {before : List WithdrawalSet} {e : Entry Decimal}
    {set : WithdrawalSet} {event : OutboxRow}
    (h : Justified σ (.compensated id before e set event)) :
    set.status = .failed := by
  cases h with
  | compensated _ _ _ _ _ _ hset | recoveredCompensated _ _ _ _ hset => exact hset.1

/-- A transaction that updates a withdrawal reports its resolution, if this is what the update
says. -/
theorem Narrated.resolutions (h : Narrated σ T) (hT : Justified σ T)
    {before : List WithdrawalSet} {set : WithdrawalSet}
    (hu : T.updates = some (id, before ++ [set])) :
    (T.events.filter (·.payload.payload.resolves id)).map (·.eventType) =
      set.status.resolution := by
  cases h with
  -- submitting is not a resolution
  | submitted =>
      cases hT with
      | submitted _ _ _ _ hsubmits =>
          obtain ⟨-, rfl⟩ := Transaction.last_of_updates hu [] rfl
          rw [hsubmits.1]
          rfl
  -- the event of a completion, and then that of a compensation
  | completed _ _ hevent =>
      obtain ⟨rfl, rfl⟩ := Transaction.last_of_updates hu _ rfl
      rw [hT.status_of_completed]
      simp [Transaction.events, hevent.payload, hevent.eventType, EventPayload.resolves,
        EventPayload.eventType, WithdrawalStatus.resolution]
  | compensated _ hevent =>
      obtain ⟨rfl, rfl⟩ := Transaction.last_of_updates hu _ rfl
      rw [hT.status_of_compensated]
      simp [Transaction.events, hevent.payload, hevent.eventType, EventPayload.resolves,
        EventPayload.eventType, WithdrawalStatus.resolution]
  | _ => cases hu

/-- A leg of a transaction refers to something that the transaction introduces, or to the withdrawal
that it updates. -/
theorem Justified.reference_cases (h : Justified σ T) {e : Entry Decimal} (he : e ∈ T.entries)
    (href : e.movement.reference = some id) : id ∈ T.names ∨ ∃ u ∈ T.updates, u.1 = id := by
  cases h with
  | seeded _ _ hnone =>
      -- a seed refers to nothing
      obtain rfl := List.mem_singleton.mp he
      rw [hnone] at href
      cases href
  -- the row that is introduced with the movement
  | transferred _ _ _ hmove | deposited _ _ _ hmove | reserved _ _ _ _ _ hmove =>
      obtain rfl := List.mem_singleton.mp he
      rw [hmove] at href
      cases href
      refine .inl ?_
      simp [Transaction.names, Transaction.transfers, Transaction.deposits,
        Transaction.withdrawals, DepositSet.apply]
  -- a refund refers to the withdrawal that fails
  | compensated _ _ _ _ _ hrev | recoveredCompensated _ _ _ hrev =>
      obtain rfl := List.mem_singleton.mp he
      rw [hrev.1] at href
      cases href
      exact .inr ⟨_, rfl, rfl⟩
  | _ => cases he

end Narrated

namespace Commits

variable {i : ℕ} {T : Transaction}

/-- A transaction that does not change a withdrawal does not resolve it. -/
theorem resolutions_of_unchanged (hT : Commits sha256 t₀ ok c i T)
    (hid : id ∉ (c.sess i).changes) :
    (c.shared.db.applyAll T.writes).resolutions id = c.shared.db.resolutions id := by
  have hnone : T.events.filter (·.payload.payload.resolves id) = [] := by
    refine List.filter_eq_nil_iff.mpr fun o ho hres => hid ?_
    exact (Transaction.mem_changes hT.writes).mpr (hT.narrated.updates_of_resolves ho hres)
  rw [Database.resolutions_post, hnone]
  rfl

/-- The legs that a transaction adds are those of its entry, in some order. -/
theorem legs_perm_entries (db : Database) (T : Transaction) :
    (T.writes.flatMap Write.legs).reverse.Perm
    (T.entries.flatMap fun e => e.stored.legs) := by
  have hpost := db.ledgerEntries_post T
  rw [Database.ledgerEntries_applyAll] at hpost
  exact (List.perm_append_right_iff _).mp hpost

/-- A transaction does not add legs to something that is known, unless it changes that
withdrawal. -/
theorem legsOf_of_known (hT : Commits sha256 t₀ ok c i T) (hused : id ∈ c.shared.db.names)
    (hid : id ∉ (c.sess i).changes) :
    (c.shared.db.applyAll T.writes).legsOf id = c.shared.db.legsOf id := by
  have hnone : (T.writes.flatMap Write.legs).reverse.filter (·.referenceId = some id) = [] := by
    refine List.filter_eq_nil_iff.mpr fun l hl href => ?_
    obtain ⟨e, he, hle⟩ := List.mem_flatMap.mp ((legs_perm_entries c.shared.db T).mem_iff.mp hl)
    rw [decide_eq_true_eq, Entry.reference_of_mem hle] at href
    rcases hT.justified.reference_cases he href with hnames | hupdates
    · exact fresh_of_drawn hT.run (hT.justified.drawn id hnames) hused
    · exact hid ((Transaction.mem_changes hT.writes).mpr hupdates)
  rw [Database.legsOf, Database.ledgerEntries_applyAll, List.filter_append, hnone, Database.legsOf]
  rfl

/-- A transaction that does not change a withdrawal does not touch its legs. -/
theorem legsOf_of_unchanged (hT : Commits sha256 t₀ ok c i T)
    (hrow : ∃ row ∈ c.shared.db.withdrawals, row.id = id) (hid : id ∉ (c.sess i).changes) :
    (c.shared.db.applyAll T.writes).legsOf id = c.shared.db.legsOf id := by
  refine hT.legsOf_of_known ?_ hid
  obtain ⟨row, hrow, rfl⟩ := hrow
  simp only [Database.names, List.mem_append]
  exact .inr (.inr (.inr (List.mem_map_of_mem hrow)))

end Commits

/-! ## Whole runs -/

section HandlerStopped

variable (hok : ∀ w l, ok w l → HandlerStopped id w l)

include hok

/-- In every run in which its creator has stopped, the outbox reports about a withdrawal what the
status of its row says, and nothing about a withdrawal that does not exist. -/
theorem resolutions_eq (h : WalletRun sha256 t₀ ok c) :
    (∀ row ∈ c.shared.db.withdrawals, row.id = id →
        c.shared.db.resolutions id = row.status.resolution) ∧
      ((∀ row ∈ c.shared.db.withdrawals, row.id ≠ id) → c.shared.db.resolutions id = []) := by
  refine database_invariant (P := fun db =>
    (∀ row ∈ db.withdrawals, row.id = id → db.resolutions id = row.status.resolution) ∧
      ((∀ row ∈ db.withdrawals, row.id ≠ id) → db.resolutions id = []))
    ⟨fun row hrow => (nomatch hrow), fun _ => rfl⟩ ?_ h
  rintro c i T hT ⟨hrows, hnone⟩
  refine ⟨fun row hrow hid => ?_, fun hunknown => ?_⟩
  · rcases Database.mem_withdrawals_post _ T hrow with ⟨w, hw, rfl⟩ | ⟨old, hold, rfl⟩
    · -- a new withdrawal is open, and nobody has resolved it
      have hnew : ∀ row ∈ c.shared.db.withdrawals, row.id ≠ id :=
        fun row hrow heq => hT.new_withdrawal hw row hrow (heq.trans hid.symm)
      have hunchanged : id ∉ (c.sess i).changes := by
        intro hchange
        obtain ⟨row, hrow, heq⟩ := hT.known_of_changes hchange
        exact hnew row hrow heq
      have hpending : w.stored.status = .pending := hT.justified.status_of_mem hw
      rw [hT.resolutions_of_unchanged hunchanged, hnone hnew, hpending]
      rfl
    · rw [T.update_id] at hid
      subst hid
      have hlate := hT.not_writesLate_of_stopped hok
      rcases hT.update_cases_of_not_late hlate hold with ⟨hunchanged, hsame⟩ | ⟨hchange, hmoves⟩
      · rw [hT.resolutions_of_unchanged hunchanged, hsame]
        exact hrows old hold rfl
      · -- the withdrawal was open before, so the event of the transaction is the only one
        obtain ⟨before, set, hu, hstatus⟩ :=
          T.last_update ((Transaction.mem_changes hT.writes).mp hchange)
        have hopen := WithdrawalStatus.resolution_of_open hmoves.precedes.1
        rw [Database.resolutions_post, hT.narrated.resolutions hT.justified hu,
          hrows old hold rfl, hopen, hstatus old rfl, List.append_nil]
  · have hunknown' : ∀ row ∈ c.shared.db.withdrawals, row.id ≠ id := by
      intro row hrow
      have hpost : T.update row ∈ (c.shared.db.applyAll T.writes).withdrawals := by
        rw [Database.withdrawals_post]
        exact List.mem_append_right _ (List.mem_map_of_mem hrow)
      exact T.update_id row ▸ hunknown _ hpost
    have hunchanged : id ∉ (c.sess i).changes := by
      intro hchange
      obtain ⟨row, hrow, heq⟩ := hT.known_of_changes hchange
      exact hunknown' row hrow heq
    rw [hT.resolutions_of_unchanged hunchanged]
    exact hnone hunknown'

/-- Once a withdrawal is completed or failed, nothing changes its row, its legs and what the outbox
reports about it. -/
theorem terminal_unchanged (h : WalletRun sha256 t₀ ok c) {c' : Wallet}
    (h' : (wallet sha256).Run ok c c') {row : Withdrawal Ticks}
    (hrow : row ∈ c.shared.db.withdrawals) (hid : row.id = id) (hterm : row.status.Terminal) :
    row ∈ c'.shared.db.withdrawals ∧ c'.shared.db.legsOf id = c.shared.db.legsOf id ∧
      c'.shared.db.resolutions id = c.shared.db.resolutions id := by
  refine database_monotone (R := fun db db' => row ∈ db.withdrawals →
    row ∈ db'.withdrawals ∧ db'.legsOf id = db.legsOf id ∧ db'.resolutions id = db.resolutions id)
    ?_ ?_ ?_ h h' hrow
  · exact fun db hrow => ⟨hrow, rfl, rfl⟩
  · intro db₁ db₂ db₃ h₁₂ h₂₃ hrow
    obtain ⟨hrow₂, hlegs₂, hres₂⟩ := h₁₂ hrow
    obtain ⟨hrow₃, hlegs₃, hres₃⟩ := h₂₃ hrow₂
    exact ⟨hrow₃, hlegs₃.trans hlegs₂, hres₃.trans hres₂⟩
  · -- the row is not touched by a transaction in which its creator does not write late
    intro c i T hT hrow
    have hlate : ¬ WritesLate c.toWorld i row.id := hid ▸ hT.not_writesLate_of_stopped hok
    rcases hT.update_cases_of_not_late hlate hrow with ⟨hunchanged, hsame⟩ | ⟨-, hmoves⟩
    · rw [hid] at hunchanged
      refine ⟨?_, hT.legsOf_of_unchanged ⟨row, hrow, hid⟩ hunchanged,
        hT.resolutions_of_unchanged hunchanged⟩
      rw [Database.withdrawals_post]
      exact List.mem_append_right _ (List.mem_map.mpr ⟨row, hrow, hsame⟩)
    · -- a row in a terminal status makes no further move
      exact absurd hterm hmoves.precedes.1

end HandlerStopped

/-- One resolution for each withdrawal: in every run in which its creator has stopped before a sweep
reads it again, whatever the sweeps do and wherever they crash, a withdrawal receives at most one
event about its end, and the one that fits its status. What follows changes nothing about it. -/
theorem resolved_once {id : UUID} (h : ReachesUnder sha256 (HandlerStopped id) c) :
    (c.shared.db.resolutions id).length ≤ 1 ∧
      (∀ row ∈ c.shared.db.withdrawals, row.id = id →
        c.shared.db.resolutions id = row.status.resolution) ∧
      ∀ c', (wallet sha256).Run (HandlerStopped id) c c' →
        ∀ row ∈ c.shared.db.withdrawals, row.id = id → row.status.Terminal →
          row ∈ c'.shared.db.withdrawals ∧ c'.shared.db.legsOf id = c.shared.db.legsOf id ∧
            c'.shared.db.resolutions id = c.shared.db.resolutions id := by
  obtain ⟨t₀, h⟩ := h
  have hok : ∀ w l, HandlerStopped id w l → HandlerStopped id w l := fun _ _ h => h
  obtain ⟨hrows, hnone⟩ := resolutions_eq hok h
  refine ⟨?_, hrows, fun c' h' row hrow hid hterm => terminal_unchanged hok h h' hrow hid hterm⟩
  -- the row is there, or nothing is reported about it
  by_cases hknown : ∃ row ∈ c.shared.db.withdrawals, row.id = id
  · obtain ⟨row, hrow, hid⟩ := hknown
    rw [hrows row hrow hid]
    exact row.status.length_resolution
  · push Not at hknown
    rw [hnone hknown]
    decide

/-- The creator of the withdrawal stops before it submits it. Six minutes later two sweeps claim the
withdrawal, and the first of them completes it. -/
def claimedTwiceSchedule : Schedule :=
  reservedSchedule ++ [.stop 2, .env (.wait 360000000),
      .spawn (.request (.recoverStuckWithdrawals {})),
      .spawn (.request (.recoverStuckWithdrawals {}))] ++
    steps 3 1 ++ [.call 3 (.choose (.claim [⟨9⟩]))] ++ steps 3 1 ++
    steps 4 1 ++ [.call 4 (.choose (.claim [⟨9⟩]))] ++ steps 4 1 ++
    steps 3 6 ++ [.call 3 (.choose (.accept "sweep"))] ++ steps 3 9

/-- Two sweeps have read the same withdrawal, which is resolved once. -/
theorem resolved_once_claimedTwice :
    ∃ c c', ReachesUnder Sha256.hexdigest (HandlerStopped ⟨9⟩) c ∧
      (wallet Sha256.hexdigest).Run (HandlerStopped ⟨9⟩) c c' ∧
      c'.shared.reread = [⟨9⟩, ⟨9⟩] ∧ (c.shared.db.resolutions ⟨9⟩).length ≤ 1 ∧
      ∃ row ∈ c.shared.db.withdrawals, row.id = ⟨9⟩ ∧ row.status = .completed ∧
        row ∈ c'.shared.db.withdrawals ∧ c'.shared.db.legsOf ⟨9⟩ = c.shared.db.legsOf ⟨9⟩ ∧
        c'.shared.db.resolutions ⟨9⟩ = c.shared.db.resolutions ⟨9⟩ := by
  obtain ⟨c, c', hc, hc', hreread, row, hrow, hid, hcompleted⟩ := reachesUnder_then_of_played
    (P := fun c c' => c'.shared.reread = [⟨9⟩, ⟨9⟩] ∧
      ∃ row ∈ c.shared.db.withdrawals, row.id = ⟨9⟩ ∧ row.status = .completed)
    (show (played (HandlerStopped ⟨9⟩) claimedTwiceSchedule).any (fun c =>
      (play (HandlerStopped ⟨9⟩) (player Sha256.hexdigest) c (steps 4 2)).any _) = true by
      decide +kernel)
  obtain ⟨hlength, -, hlater⟩ := resolved_once hc
  exact ⟨c, c', hc, hc', hreread, hlength, row, hrow, hid, hcompleted,
    hlater c' hc' row hrow hid (.inl hcompleted)⟩

end MiniWallet

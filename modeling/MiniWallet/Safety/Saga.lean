import MiniWallet.Safety.Refunds

/-!
# The states of a withdrawal

A withdrawal goes from pending to submitted, and from there to completed or failed. Sweeps read a
row again under lock before they decide. The process that created the withdrawal does not: it writes
its object back by primary key. So the machine is respected as long as no creator commits a change
to a withdrawal that a sweep has changed before.

* `NoLateWrite`: the condition on a step.
* `Moves`, `Commits.update_cases`: what a transaction can do to a withdrawal under the condition.
* `failed_of_reversal`: under the condition a withdrawal that has been refunded has failed.
* `terminal_absorbing`: under the condition completed and failed withdrawals stay as they are.
* `terminal_not_absorbing`: without it a completed withdrawal can become submitted again.
-/

namespace MiniWallet

open Numeric Process System State

variable {sha256 : String → String} {t₀ : Time} {ok : State → Event → Prop} {c c' : Wallet}

/-- The order of the states: pending, submitted, and then completed or failed. -/
def WithdrawalStatus.Precedes (s s' : WithdrawalStatus) : Prop :=
  s = s' ∨ s = .pending ∨ (s = .submitted ∧ s'.Terminal)

namespace WithdrawalStatus.Precedes

/-- Each status precedes itself. -/
theorem refl (s : WithdrawalStatus) : s.Precedes s := .inl rfl

/-- The order of the statuses is transitive. -/
theorem trans {s s' s'' : WithdrawalStatus} (h : s.Precedes s') (h' : s'.Precedes s'') :
    s.Precedes s'' := by
  rcases h with rfl | rfl | ⟨rfl, hs'⟩
  · exact h'
  · exact .inr (.inl rfl)
  · -- nothing follows a terminal state but itself
    rcases h' with rfl | rfl | ⟨rfl, -⟩
    · exact .inr (.inr ⟨rfl, hs'⟩)
    · exact absurd hs' (by decide)
    · exact absurd hs' (by decide)

/-- Nothing follows a terminal state but itself. -/
theorem eq_of_terminal {s s' : WithdrawalStatus} (h : s.Precedes s') (hs : s.Terminal) :
    s' = s := by
  rcases h with rfl | rfl | ⟨rfl, -⟩
  · rfl
  · exact absurd hs (by decide)
  · exact absurd hs (by decide)

end WithdrawalStatus.Precedes

/-! ## The condition -/

/-- The process that commits in a step, if the step is a commit. -/
def committer : Event → Option ℕ
  | .call i .commit (.ok _) => some i
  | _ => none

/-- The step is not the commit of a creator that changes a withdrawal which another process has
changed before. -/
def NoLateWrite (w : State) (l : Event) : Prop :=
  ∀ i ∈ committer l, ∀ id ∈ (w.sess i).changes, (w.sess i).owns id → id ∉ w.shared.overtaken

/-- Whether a step is no late write is decidable. -/
instance (w : State) (l : Event) : Decidable (NoLateWrite w l) :=
  inferInstanceAs (Decidable (∀ i ∈ committer l, _))

/-- Process `i` is about to change a withdrawal that it has created and another process has changed
before. -/
def WritesLate (w : State) (i : ℕ) (id : UUID) : Prop :=
  id ∈ (w.sess i).changes ∧ (w.sess i).owns id ∧ id ∈ w.shared.overtaken

/-! ## What a transaction updates -/

namespace Commits

variable {i : ℕ} {T : Transaction}

/-- A withdrawal that a sweep updates is as the sweep has read it. -/
theorem row_of_reread (hT : Commits sha256 t₀ ok c i T) {row row' : Withdrawal Ticks}
    (hrow : row ∈ c.shared.db.withdrawals) (hrow' : row' ∈ (c.sess i).rows)
    (hid : row'.id = row.id) : row' = row :=
  withdrawal_unique hT.run row' (reread_current hT.run hrow').2 row hrow hid

/-- Under the condition, the transaction is not late for any withdrawal. -/
theorem not_writesLate (hT : Commits sha256 t₀ ok c i T) (hok : ∀ w l, ok w l → NoLateWrite w l)
    (id : UUID) : ¬ WritesLate c.toWorld i id :=
  fun ⟨hchange, howns, hover⟩ => hok _ _ hT.allowed i rfl id hchange howns hover

/-- A withdrawal that its creator updates in time is as the creator's object has it. -/
theorem row_of_owned (hT : Commits sha256 t₀ ok c i T) {row : Withdrawal Ticks}
    (hlate : ¬ WritesLate c.toWorld i row.id) (hrow : row ∈ c.shared.db.withdrawals)
    {w : Withdrawal Decimal} (hw : (c.sess i).owned = some w) (hid : w.id = row.id)
    {u : UUID × List WithdrawalSet} (hu : u ∈ T.updates) (huid : u.1 = w.id) : w.stored = row := by
  have hchange : w.id ∈ (c.sess i).changes :=
    (Transaction.mem_changes hT.writes).mpr ⟨u, hu, huid⟩
  have howns : (c.sess i).owns w.id := by simp [Session.owns, hw]
  have hover : w.id ∉ c.shared.overtaken :=
    fun hover => hlate (hid ▸ ⟨hchange, howns, hover⟩)
  exact withdrawal_unique hT.run _ (owned_current hT.run hw hover) row hrow hid

end Commits

/-- What a transaction of the session `σ` can make of the row of a withdrawal, as long as no creator
writes late. -/
inductive Moves (σ : Session) (row row' : Withdrawal Ticks) : Prop
  /-- The creator submits the withdrawal. -/
  | submitted {w : Withdrawal Decimal} {set : WithdrawalSet} : σ.owned = some w → w.stored = row →
      σ.rows = [] → row.status = .pending → set.Submits → row' = set.apply row → Moves σ row row'
  /-- The creator completes the withdrawal, which the rail has accepted. -/
  | completed {w : Withdrawal Decimal} : σ.owned = some w → w.stored = row → σ.rows = [] →
      row.status = .submitted → row.id ∈ σ.accepted → row'.status = .completed → Moves σ row row'
  /-- The creator compensates for the withdrawal, which the rail has not accepted. -/
  | compensated {w : Withdrawal Decimal} : σ.owned = some w → w.stored = row → σ.rows = [] →
      row.status = .submitted → row.id ∉ σ.accepted → row'.status = .failed → Moves σ row row'
  /-- A sweep completes the withdrawal. -/
  | recoveredCompleted : σ.owned = none → row ∈ σ.rows → row'.status = .completed →
      (row.status = .pending ∧ row.id ∈ σ.accepted ∨
        row.status = .submitted ∧ row.externalReference ≠ none) → Moves σ row row'
  /-- A sweep compensates for the withdrawal. -/
  | recoveredCompensated : σ.owned = none → row ∈ σ.rows → row'.status = .failed →
      (row.status = .pending ∧ row.id ∉ σ.accepted ∨
        row.status = .submitted ∧ row.externalReference ≠ none) → Moves σ row row'
  /-- A sweep compensates for the withdrawal after the hard timeout. -/
  | timedOut {set : WithdrawalSet} {t : Time} : σ.owned = none → row ∈ σ.rows →
      row.status = .submitted → set.Fails → set.failureCode = some "TIMEOUT" →
      set.completedAt = some t → row.updatedAt + minutes SagaRecovery.hardTimeoutMinutes < t →
      row' = set.apply row → Moves σ row row'

/-- A transaction moves a withdrawal from one of its states to a later one. -/
theorem Moves.precedes {σ : Session} {row row' : Withdrawal Ticks} (h : Moves σ row row') :
    ¬ row.status.Terminal ∧ row.status.Precedes row'.status := by
  have hopen : ∀ {s : WithdrawalStatus}, s = .pending ∨ s = .submitted → ¬ s.Terminal := by
    rintro s (rfl | rfl) <;> decide
  cases h with
  -- from pending to submitted
  | submitted _ _ _ hpending => exact ⟨hopen (.inl hpending), .inr (.inl hpending)⟩
  -- from submitted to completed or failed
  | completed _ _ _ hsubmitted _ hset =>
      exact ⟨hopen (.inr hsubmitted), .inr (.inr ⟨hsubmitted, .inl hset⟩)⟩
  | compensated _ _ _ hsubmitted _ hset =>
      exact ⟨hopen (.inr hsubmitted), .inr (.inr ⟨hsubmitted, .inr hset⟩)⟩
  | recoveredCompleted _ _ hset hfrom =>
      -- a sweep may take a pending withdrawal to its end at once
      rcases hfrom with ⟨hpending, -⟩ | ⟨hsubmitted, -⟩
      · exact ⟨hopen (.inl hpending), .inr (.inl hpending)⟩
      · exact ⟨hopen (.inr hsubmitted), .inr (.inr ⟨hsubmitted, .inl hset⟩)⟩
  | recoveredCompensated _ _ hset hfrom =>
      rcases hfrom with ⟨hpending, -⟩ | ⟨hsubmitted, -⟩
      · exact ⟨hopen (.inl hpending), .inr (.inl hpending)⟩
      · exact ⟨hopen (.inr hsubmitted), .inr (.inr ⟨hsubmitted, .inr hset⟩)⟩
  -- the hard timeout
  | timedOut _ _ hsubmitted hset _ _ _ hrow' =>
      refine ⟨hopen (.inr hsubmitted), .inr (.inr ⟨hsubmitted, .inr ?_⟩)⟩
      rw [hrow']
      exact hset.1

namespace Commits

variable {i : ℕ} {T : Transaction}

/-- A transaction that is not late leaves a withdrawal alone or moves it forward. -/
theorem update_cases_of_not_late (hT : Commits sha256 t₀ ok c i T) {row : Withdrawal Ticks}
    (hlate : ¬ WritesLate c.toWorld i row.id) (hrow : row ∈ c.shared.db.withdrawals) :
    (row.id ∉ (c.sess i).changes ∧ T.update row = row) ∨
      (row.id ∈ (c.sess i).changes ∧ Moves (c.sess i) row (T.update row)) := by
  by_cases hid : row.id ∈ (c.sess i).changes
  · obtain ⟨u, hu, huid⟩ := (Transaction.mem_changes hT.writes).mp hid
    -- the row is updated as the transaction says, and the last update decides about the status
    have hupdate : ∀ sets, u = (row.id, sets) →
        T.update row = sets.foldl (fun w s => s.apply w) row := by
      rintro sets rfl
      rw [Transaction.update, hu, Option.elim_some, Withdrawal.updated, if_pos rfl]
    have hstatus : ∀ before set, u = (row.id, before ++ [set]) →
        (T.update row).status = set.status := by
      intro before set heq
      rw [hupdate _ heq, foldl_apply_concat]
      rfl
    refine .inr ⟨hid, ?_⟩
    cases hT.justified with
    | @submitted w set howned hrows hpending _ hset =>
        cases hu
        have hcur := hT.row_of_owned hlate hrow howned huid rfl rfl
        exact .submitted howned hcur hrows (hcur ▸ hpending) hset (hupdate [set] (by rw [← huid]))
    | @completed w set event howned hrows hsubmitted haccepted hset =>
        cases hu
        have hcur := hT.row_of_owned hlate hrow howned huid rfl rfl
        refine .completed howned hcur hrows (hcur ▸ hsubmitted) (hcur ▸ haccepted) ?_
        rw [hstatus [] set (by rw [← huid]), hset]
    | @compensated w e set event howned hrows hsubmitted haccepted _ _ hset =>
        cases hu
        have hcur := hT.row_of_owned hlate hrow howned huid rfl rfl
        refine .compensated howned hcur hrows (hcur ▸ hsubmitted) (hcur ▸ haccepted) ?_
        rw [hstatus [] set (by rw [← huid]), hset.1]
    | @recoveredCompleted row' before set event howned hrow' hset hfrom =>
        cases hu
        obtain rfl := hT.row_of_reread hrow hrow' huid
        refine .recoveredCompleted howned hrow' ?_ hfrom
        rw [hstatus before set rfl, hset]
    | @recoveredCompensated row' before e set event howned hrow' _ _ hset hfrom =>
        cases hu
        obtain rfl := hT.row_of_reread hrow hrow' huid
        have hfailed := (hstatus before set rfl).trans hset.1
        rcases hfrom with hfrom | hfrom | ⟨hsubmitted, rfl, hcode, t, ht, hlt⟩
        · exact .recoveredCompensated howned hrow' hfailed (.inl hfrom)
        · exact .recoveredCompensated howned hrow' hfailed (.inr hfrom)
        · exact .timedOut howned hrow' hsubmitted hset hcode ht hlt (hupdate [set] rfl)
    | _ => cases hu
  · refine .inl ⟨hid, Transaction.update_of_ne fun u hu huid => hid ?_⟩
    exact (Transaction.mem_changes hT.writes).mpr ⟨u, hu, huid⟩

/-- Under the condition, a transaction leaves a withdrawal alone or moves it forward. -/
theorem update_cases (hT : Commits sha256 t₀ ok c i T) (hok : ∀ w l, ok w l → NoLateWrite w l)
    {row : Withdrawal Ticks} (hrow : row ∈ c.shared.db.withdrawals) :
    (row.id ∉ (c.sess i).changes ∧ T.update row = row) ∨
      (row.id ∈ (c.sess i).changes ∧ Moves (c.sess i) row (T.update row)) :=
  hT.update_cases_of_not_late (hT.not_writesLate hok row.id) hrow

/-- Under the condition, a transaction takes a withdrawal from one of its states to a later one. -/
theorem status_precedes (hT : Commits sha256 t₀ ok c i T) (hok : ∀ w l, ok w l → NoLateWrite w l)
    {row : Withdrawal Ticks} (hrow : row ∈ c.shared.db.withdrawals) :
    row.status.Precedes (T.update row).status := by
  rcases hT.update_cases hok hrow with ⟨-, heq⟩ | ⟨-, hmoves⟩
  · rw [heq]
    exact .refl _
  · exact hmoves.precedes.2

/-- Under the condition, a transaction leaves a completed or failed withdrawal alone. -/
theorem update_terminal (hT : Commits sha256 t₀ ok c i T) (hok : ∀ w l, ok w l → NoLateWrite w l)
    {row : Withdrawal Ticks} (hrow : row ∈ c.shared.db.withdrawals) (hterm : row.status.Terminal) :
    row.id ∉ (c.sess i).changes ∧ T.update row = row :=
  (hT.update_cases hok hrow).resolve_right fun hmoves => hmoves.2.precedes.1 hterm

end Commits

/-! ## Refunds and failures -/

/-- A transaction that refunds a withdrawal marks it as failed. -/
theorem Justified.failed_of_refund {σ : Session} {T : Transaction} (h : Justified σ T)
    {e : Entry Decimal} (he : e ∈ T.entries) (hkind : e.movement.kind = .withdrawalReversal)
    {row : Withdrawal Ticks} (href : e.movement.reference = some row.id) :
    (T.update row).status = .failed := by
  -- the last of the updates is the one that counts
  have hstatus : ∀ id before set, T.updates = some (id, before ++ [set]) → row.id = id →
      (T.update row).status = set.status := by
    intro id before set hu hid
    rw [Transaction.update, hu, Option.elim_some, Withdrawal.updated, if_pos hid,
      foldl_apply_concat]
    rfl
  cases h with
  -- these entries are no reversals
  | seeded _ hkind' =>
      obtain rfl := List.mem_singleton.mp he
      rw [hkind] at hkind'
      cases hkind'
  | transferred _ _ _ hmove | deposited _ _ _ hmove | reserved _ _ _ _ _ hmove =>
      obtain rfl := List.mem_singleton.mp he
      rw [hmove] at hkind
      cases hkind
  -- the update that comes with a reversal sets the status to failed
  | compensated _ _ _ _ _ hrev hset =>
      obtain rfl := List.mem_singleton.mp he
      rw [hrev.1] at href
      exact (hstatus _ [] _ rfl (Option.some.inj href).symm).trans hset.1
  | recoveredCompensated _ _ _ hrev hset =>
      obtain rfl := List.mem_singleton.mp he
      rw [hrev.1] at href
      exact (hstatus _ _ _ rfl (Option.some.inj href).symm).trans hset.1
  | _ => cases he

/-- A reversal leg belongs to a withdrawal. -/
theorem reversal_known (h : WalletRun sha256 t₀ ok c) {l : LedgerEntry Ticks}
    (hl : l ∈ c.shared.db.ledgerEntries) (hkind : l.entryType = .withdrawalReversal) :
    ∃ w ∈ c.shared.db.withdrawals, l.referenceId = some w.id := by
  obtain ⟨js, hjs⟩ := books_kept h
  obtain ⟨e, he, hle⟩ := List.mem_flatMap.mp (hjs.ledger.mem_iff.mp hl)
  rw [Entry.kind_of_mem hle] at hkind
  obtain ⟨w, hw, hrev⟩ := hjs.reversals e he hkind
  refine ⟨w, hw, ?_⟩
  rw [Entry.reference_of_mem hle, hrev.1]
  rfl

/-- In every run without late writes a withdrawal that has reversal legs has failed. -/
theorem failed_of_reversal (hok : ∀ w l, ok w l → NoLateWrite w l) (h : WalletRun sha256 t₀ ok c) :
    ∀ w ∈ c.shared.db.withdrawals, c.shared.db.reversalLegs w.id ≠ [] → w.status = .failed := by
  refine database_invariant (P := fun db => ∀ w ∈ db.withdrawals, db.reversalLegs w.id ≠ [] →
    w.status = .failed) (fun w hw => nomatch hw) ?_ h
  intro c i T hT hI row hrow hlegs
  obtain ⟨l, hleg⟩ := List.exists_mem_of_ne_nil _ hlegs
  obtain ⟨hmem, hcond⟩ := List.mem_filter.mp hleg
  obtain ⟨hkind, href⟩ := of_decide_eq_true hcond
  have hl := List.mem_append.mp ((c.shared.db.ledgerEntries_post T).mem_iff.mp hmem)
  rcases Database.mem_withdrawals_post _ T hrow with ⟨w, hw, rfl⟩ | ⟨old, hold, rfl⟩
  · -- a new withdrawal has no legs yet, and its own transaction does not refund it
    have hknown : ∃ w' ∈ c.shared.db.withdrawals, l.referenceId = some w'.id := by
      rcases hl with hl | hl
      · obtain ⟨e, he, hle⟩ := List.mem_flatMap.mp hl
        rw [Entry.kind_of_mem hle] at hkind
        obtain ⟨w', hw', hrev⟩ := hT.refunds e he hkind
        refine ⟨w', hw', ?_⟩
        rw [Entry.reference_of_mem hle, hrev.1]
        rfl
      · exact reversal_known hT.run hl hkind
    obtain ⟨w', hw', href'⟩ := hknown
    exact absurd (Option.some.inj (href'.symm.trans href)) (hT.new_withdrawal hw w' hw')
  · rw [T.update_id] at href
    rcases hl with hl | hl
    · obtain ⟨e, he, hle⟩ := List.mem_flatMap.mp hl
      rw [Entry.kind_of_mem hle] at hkind
      rw [Entry.reference_of_mem hle] at href
      exact hT.justified.failed_of_refund he hkind href
    · have hfailed : old.status = .failed := by
        refine hI old hold (List.ne_nil_of_mem (a := l) (List.mem_filter.mpr ⟨hl, ?_⟩))
        exact decide_eq_true ⟨hkind, href⟩
      rw [(hT.update_terminal hok hold (.inr hfailed)).2]
      exact hfailed

/-! ## Whole runs -/

/-- Under the condition, completed and failed are absorbing: along every run every withdrawal moves
only forward, and not at all once it is completed or failed. -/
theorem terminal_absorbing (h : ReachesUnder sha256 NoLateWrite c)
    (h' : (wallet sha256).Run NoLateWrite c c') :
    ∀ row ∈ c.shared.db.withdrawals, ∃ row' ∈ c'.shared.db.withdrawals, row'.id = row.id ∧
      row.status.Precedes row'.status ∧ (row.status.Terminal → row'.status = row.status) := by
  obtain ⟨t₀, h⟩ := h
  -- the rows only move forward in a transaction, so they do in a run
  have hmono := database_monotone (R := fun db db' => ∀ row ∈ db.withdrawals,
    ∃ row' ∈ db'.withdrawals, row'.id = row.id ∧ row.status.Precedes row'.status) ?_ ?_ ?_ h h'
  · intro row hrow
    obtain ⟨row', hrow', hid, hprec⟩ := hmono row hrow
    exact ⟨row', hrow', hid, hprec, hprec.eq_of_terminal⟩
  · exact fun db row hrow => ⟨row, hrow, rfl, .refl _⟩
  · intro db₁ db₂ db₃ h₁₂ h₂₃ row hrow
    obtain ⟨row', hrow', hid, hprec⟩ := h₁₂ row hrow
    obtain ⟨row'', hrow'', hid', hprec'⟩ := h₂₃ row' hrow'
    exact ⟨row'', hrow'', hid'.trans hid, hprec.trans hprec'⟩
  · intro c i T hT row hrow
    refine ⟨T.update row, ?_, T.update_id row, hT.status_precedes (fun _ _ h => h) hrow⟩
    rw [Database.withdrawals_post]
    exact List.mem_append_right _ (List.mem_map_of_mem hrow)

/-- A completed withdrawal is still completed ten hours later. -/
theorem terminal_absorbing_completed :
    ∃ c c', ReachesUnder Sha256.hexdigest NoLateWrite c ∧
      (wallet Sha256.hexdigest).Run NoLateWrite c c' ∧
      (∃ row ∈ c.shared.db.withdrawals, row.status = .completed) ∧ c'.shared.clock = 3600000000 ∧
      ∀ row ∈ c.shared.db.withdrawals, ∃ row' ∈ c'.shared.db.withdrawals, row'.id = row.id ∧
        row.status.Precedes row'.status ∧ (row.status.Terminal → row'.status = row.status) := by
  obtain ⟨c, c', hc, hc', hrow, hclock⟩ := reachesUnder_then_of_played
    (P := fun c c' => (∃ row ∈ c.shared.db.withdrawals, row.status = .completed) ∧
      c'.shared.clock = 3600000000)
    (show (played NoLateWrite (submittedSchedule ++ [.call 2 (.choose (.accept "ref"))] ++
      steps 2 9)).any (fun c => (play NoLateWrite (player Sha256.hexdigest) c
        [.env (.wait 3600000000)]).any _) = true by decide +kernel)
  exact ⟨c, c', hc, hc', hrow, hclock, terminal_absorbing hc hc'⟩

/-- A sweep starts when the withdrawal has been pending for six minutes, and completes it while its
creator has still not submitted it. -/
def sweptSchedule : Schedule :=
  reservedSchedule ++ [.env (.wait 360000000), .spawn (.request (.recoverStuckWithdrawals {}))] ++
    steps 3 1 ++ [.call 3 (.choose (.claim [⟨9⟩]))] ++ steps 3 7 ++
    [.call 3 (.choose (.accept "sweep"))] ++ steps 3 9

/-- Without the condition a completed withdrawal can become submitted: the creator resumes after the
sweep, and commits its own object. -/
theorem terminal_not_absorbing :
    ∃ c c', Reaches Sha256.hexdigest c ∧ (wallet Sha256.hexdigest).Run anyStep c c' ∧
      ∃ row ∈ c.shared.db.withdrawals, row.status = .completed ∧
        ∃ row' ∈ c'.shared.db.withdrawals, row'.id = row.id ∧ row'.status = .submitted := by
  exact reachesUnder_then_of_played
    (show (played anyStep sweptSchedule).any (fun c => (play anyStep (player Sha256.hexdigest) c
      (steps 2 5)).any _) = true by decide +kernel)

end MiniWallet

import MiniWallet.Safety.Saga

/-!
# Payouts

The rail does not remember what it has paid, so whether a withdrawal is sent again rests on its
committed status. The creator of a withdrawal commits `submitted` before it calls the rail. A sweep
calls the rail in the middle of its transaction: if it loses the transaction after the rail has
accepted, nothing remembers the payment.

* `RecordsAcceptance`: the condition that no transaction is lost in this way.
* `PaidOnce`: the invariant of runs under both conditions.
* `paid_at_most_once`: no withdrawal is paid twice.
* `refund_of_paid`: a withdrawal that was paid is refunded only by the hard timeout.
-/

namespace MiniWallet

open Numeric Process System State

variable {sha256 : String → String} {t₀ : Time} {ok : State → Event → Prop} {c : Wallet}

/-! ## Rows of withdrawals while no creator writes late -/

/-- A withdrawal that is not finished has no reference of the rail, and a submitted one has the time
of its submission. -/
structure Withdrawal.Consistent (row : Withdrawal Ticks) : Prop where
  reference : ¬ row.status.Terminal → row.externalReference = none
  submittedAt : row.status = .submitted → ∃ t, row.submittedAt = some t ∧ t ≤ row.updatedAt

/-- A withdrawal that was refunded by the hard timeout: it had been submitted more than 30 minutes
before, and no reference of the rail was known. -/
structure Withdrawal.TimedOut (row : Withdrawal Ticks) : Prop where
  status : row.status = .failed
  failureCode : row.failureCode = some "TIMEOUT"
  reference : row.externalReference = none
  late : ∃ t t', row.submittedAt = some t ∧ row.completedAt = some t' ∧
    t + minutes SagaRecovery.hardTimeoutMinutes < t'

/-- A terminal row is consistent. -/
theorem Withdrawal.Consistent.of_terminal {row : Withdrawal Ticks} (h : row.status.Terminal) :
    row.Consistent := by
  refine ⟨fun hopen => absurd h hopen, fun hsubmitted => ?_⟩
  rw [hsubmitted] at h
  exact absurd h (by decide)

/-- Moves keep rows consistent. -/
theorem Moves.consistent {σ : Session} {row row' : Withdrawal Ticks} (h : Moves σ row row')
    (hrow : row.Consistent) : row'.Consistent := by
  cases h with
  | submitted _ _ _ hpending hset hrow' =>
      have hnone : row.externalReference = none := hrow.reference (by rw [hpending]; decide)
      obtain ⟨-, href, t, ht, hle⟩ := hset
      subst hrow'
      refine ⟨fun _ => ?_, fun _ => ⟨t, ?_, hle⟩⟩
      · simp [WithdrawalSet.apply, href, hnone]
      · simp [WithdrawalSet.apply, ht]
  | completed _ _ _ _ _ hset | recoveredCompleted _ _ hset => exact .of_terminal (.inl hset)
  | compensated _ _ _ _ _ hset | recoveredCompensated _ _ hset => exact .of_terminal (.inr hset)
  | timedOut _ _ _ hset _ _ _ hrow' =>
      subst hrow'
      exact .of_terminal (.inr hset.1)

/-- A submitted withdrawal that a sweep finishes has timed out. -/
theorem Moves.timedOut_of_submitted {σ : Session} {row row' : Withdrawal Ticks}
    (h : Moves σ row row') (hrow : row.Consistent) (hsubmitted : row.status = .submitted)
    (howned : σ.owned = none) : row'.TimedOut := by
  have hnone : row.externalReference = none := hrow.reference (by rw [hsubmitted]; decide)
  have hne : row.status ≠ .pending := by rw [hsubmitted]; decide
  cases h with
  -- a sweep holds no withdrawal of its own
  | submitted hw | completed hw | compensated hw =>
      rw [howned] at hw
      cases hw
  -- without a reference there is no other way to resolve it
  | recoveredCompleted _ _ _ hfrom | recoveredCompensated _ _ _ hfrom =>
      rcases hfrom with ⟨hpending, -⟩ | ⟨-, href⟩
      · exact absurd hpending hne
      · exact absurd hnone href
  | timedOut _ _ _ hset hcode ht hlt hrow' =>
      obtain ⟨t, hsub, hle⟩ := hrow.submittedAt hsubmitted
      obtain ⟨hfailed, href, hat⟩ := hset
      subst hrow'
      refine ⟨hfailed, ?_, ?_, t, _, ?_, ?_, lt_of_le_of_lt (Int.add_le_add_right hle _) hlt⟩
      · simp [WithdrawalSet.apply, hcode]
      · simp [WithdrawalSet.apply, href, hnone]
      · simp [WithdrawalSet.apply, hat, hsub]
      · simp [WithdrawalSet.apply, ht]

/-- What a transaction updates exists. -/
theorem Commits.known_of_changes {i : ℕ} {T : Transaction} (hT : Commits sha256 t₀ ok c i T)
    {id : UUID} (hid : id ∈ (c.sess i).changes) : ∃ row ∈ c.shared.db.withdrawals, row.id = id := by
  obtain ⟨u, hu, huid⟩ := (Transaction.mem_changes hT.writes).mp hid
  cases hT.justified with
  | submitted howned | completed howned | compensated howned =>
      cases hu
      obtain ⟨row, hrow, hres⟩ := known_of_owned hT.run howned
      exact ⟨row, hrow, (Withdrawal.id_eq_of_reservation_eq hres).trans huid⟩
  | recoveredCompleted _ hrow | recoveredCompensated _ hrow =>
      cases hu
      exact ⟨_, (reread_current hT.run hrow).2, huid⟩
  | _ => cases hu

section NoLateWrite

variable (hok : ∀ w l, ok w l → NoLateWrite w l)

include hok

/-- In every run without late writes the rows of withdrawals are consistent. -/
theorem withdrawals_consistent (h : WalletRun sha256 t₀ ok c) :
    ∀ row ∈ c.shared.db.withdrawals, row.Consistent := by
  refine database_invariant (P := fun db => ∀ row ∈ db.withdrawals, row.Consistent)
    (fun row hrow => nomatch hrow) ?_ h
  intro c i T hT hrows row hrow
  rcases Database.mem_withdrawals_post _ T hrow with ⟨w, hw, rfl⟩ | ⟨old, hold, rfl⟩
  · cases hT.justified with
    | reserved _ _ hpending href =>
        obtain rfl := List.mem_singleton.mp hw
        refine ⟨fun _ => href, fun hsubmitted => ?_⟩
        rw [show w.stored.status = .pending from hpending] at hsubmitted
        cases hsubmitted
    | _ => cases hw
  · rcases hT.update_cases hok hold with ⟨-, heq⟩ | ⟨-, hmoves⟩
    · rw [heq]
      exact hrows old hold
    · exact hmoves.consistent (hrows old hold)

/-- In every run without late writes a withdrawal that a sweep has changed is finished. -/
theorem overtaken_terminal (h : WalletRun sha256 t₀ ok c) :
    ∀ id ∈ c.shared.overtaken, ∃ row ∈ c.shared.db.withdrawals, row.id = id ∧
      row.status.Terminal := by
  refine h.invariant (abides sha256 t₀) (I := fun w => ∀ id ∈ w.shared.overtaken,
    ∃ row ∈ w.shared.db.withdrawals, row.id = id ∧ row.status.Terminal) ?_
  refine { init := ?_, spawn := fun _ hI => hI, call := ?_, stop := fun _ hI _ => hI, env := ?_ }
  · exact fun id hid => nomatch hid
  · intro c i o r hcall hI id hid
    dsimp only [afterCall, wallet] at hid ⊢
    rcases (WalletStep.of_call hcall).commit_cases with ⟨hdb, hover, -⟩ | ⟨T, hT, -, hs⟩
    · rw [hdb]
      exact hI id (hover ▸ hid)
    · rw [hs] at hid ⊢
      rcases List.mem_append.mp hid with hid | hid
      · -- the transaction has just changed the withdrawal, so a sweep has finished it
        obtain ⟨hchange, hnot⟩ := List.mem_filter.mp hid
        obtain ⟨row, hrow, rfl⟩ := hT.known_of_changes hchange
        refine ⟨T.update row, hT.update_mem hrow, T.update_id row, ?_⟩
        have hforeign : ∀ w, (c.sess i).owned = some w → w.stored ≠ row := by
          rintro w hw rfl
          simp [Session.owns, hw, Withdrawal.map] at hnot
        cases ((hT.update_cases hok hrow).resolve_left fun hsame => hsame.1 hchange).2 with
        | submitted hw hrow' | completed hw hrow' | compensated hw hrow' =>
            exact absurd hrow' (hforeign _ hw)
        | recoveredCompleted _ _ hset => exact .inl hset
        | recoveredCompensated _ _ hset => exact .inr hset
        | timedOut _ _ _ hset _ _ _ hrow' =>
            rw [hrow']
            exact .inr hset.1
      · obtain ⟨row, hrow, hrid, hterm⟩ := hI id hid
        refine ⟨T.update row, hT.update_mem hrow, (T.update_id row).trans hrid, ?_⟩
        rw [(hT.update_terminal hok hrow hterm).2]
        exact hterm
  · rintro c _ - hI ⟨clock, redis, rfl, -⟩
    exact hI

/-- In every run without late writes, a creator that has submitted its withdrawal and was then
overtaken was overtaken by the hard timeout. -/
theorem late_timedOut (h : WalletRun sha256 t₀ ok c) {i : ℕ} {w : Withdrawal Decimal}
    (hw : (c.sess i).owned = some w) (hsubmitted : w.status = .submitted)
    (hover : w.id ∈ c.shared.overtaken) :
    ∃ row ∈ c.shared.db.withdrawals, row.id = w.id ∧ row.TimedOut := by
  refine h.each (abides sha256 t₀) (J := fun s σ => ∀ w, σ.owned = some w →
    w.status = .submitted → w.id ∈ s.overtaken →
    ∃ row ∈ s.db.withdrawals, row.id = w.id ∧ row.TimedOut) ?_ i w hw hsubmitted hover
  -- a row that has timed out is finished, so no transaction touches it
  have hkeep : ∀ {c : Wallet} {i : ℕ} {T : Transaction}, Commits sha256 t₀ ok c i T → ∀ {id : UUID},
      (∃ row ∈ c.shared.db.withdrawals, row.id = id ∧ row.TimedOut) →
      ∃ row ∈ (c.shared.commit (c.sess i)).db.withdrawals, row.id = id ∧ row.TimedOut := by
    rintro c i T hT id ⟨row, hrow, hid, hout⟩
    refine ⟨T.update row, hT.update_mem hrow, (T.update_id row).trans hid, ?_⟩
    rw [(hT.update_terminal hok hrow (.inr hout.status)).2]
    exact hout
  refine { init := ?_, own := ?_, other := ?_, env := ?_ }
  · exact fun w hw => nomatch hw
  · intro c i o r hcall hJ w hw hsubmitted hover
    dsimp only [wallet] at hw hover ⊢
    rcases (WalletStep.of_call hcall).commit_cases with
      ⟨hdb, hovers, -, howned, -⟩ | ⟨T, hT, hσ, hs⟩
    · rw [hdb]
      exact hJ i w (howned ▸ hw) hsubmitted (hovers ▸ hover)
    · rw [hs] at hover ⊢
      rw [hσ] at hw
      rcases hT.owned_cases hw with ⟨hnew, -⟩ | ⟨w', hw', rfl⟩
      · have hpending := hT.justified.status_of_mem hnew
        rw [hsubmitted] at hpending
        cases hpending
      · rw [T.update_id] at hover ⊢
        have howns : (c.sess i).owns w'.id := by simp [Session.owns, hw']
        -- the creator's own changes do not count, and it makes no late ones
        have hover' : w'.id ∈ c.shared.overtaken := by
          refine (List.mem_append.mp hover).resolve_left fun hmem => ?_
          simp [howns] at hmem
        have hnot : w'.id ∉ (c.sess i).changes := fun hchange =>
          hok _ _ hT.allowed i rfl _ hchange howns hover'
        have hsame : T.update w' = w' := Transaction.update_of_ne fun u hu huid =>
          hnot ((Transaction.mem_changes hT.writes).mpr ⟨u, hu, huid⟩)
        rw [hsame] at hsubmitted
        exact hkeep hT (hJ i w' hw' hsubmitted hover')
  · intro c i o r j hcall hJ hj w hw hsubmitted hover
    dsimp only [wallet] at hover ⊢
    rcases (WalletStep.of_call hcall).commit_cases with ⟨hdb, hovers, -⟩ | ⟨T, hT, -, hs⟩
    · rw [hdb]
      exact hJ j w hw hsubmitted (hovers ▸ hover)
    · rw [hs] at hover ⊢
      by_cases hbefore : w.id ∈ c.shared.overtaken
      · exact hkeep hT (hJ j w hw hsubmitted hbefore)
      · -- the withdrawal is overtaken right now, when its row still agrees with the object
        have hmem := (List.mem_append.mp hover).resolve_right hbefore
        have hchange := (List.mem_filter.mp hmem).1
        have hrow := owned_current hcall.run hw hbefore
        refine ⟨T.update w.stored, hT.update_mem hrow, T.update_id _, ?_⟩
        obtain ⟨-, hmoves⟩ := (hT.update_cases hok hrow).resolve_left fun hsame => hsame.1 hchange
        refine hmoves.timedOut_of_submitted (withdrawals_consistent hok hcall.run _ hrow)
          hsubmitted ?_
        cases howned : (c.sess i).owned with
        | none => rfl
        | some w' =>
            exfalso
            cases hmoves with
            | submitted hw' heq | completed hw' heq | compensated hw' heq =>
                refine owned_disjoint hcall.run hj hw hw' ?_
                exact (congrArg Withdrawal.id heq).symm
            | recoveredCompleted hnone | recoveredCompensated hnone | timedOut hnone =>
                rw [howned] at hnone
                cases hnone
  · rintro c _ σ - hJ ⟨clock, redis, rfl, -⟩
    exact hJ

end NoLateWrite

/-! ## The condition on sweeps -/

/-- The process that takes a step, and its session afterwards. -/
def sessionAfter (w : State) : Event → Option (ℕ × Session)
  | .call i o r => some (i, after o r (w.sess i))
  | .stop i => some (i, {})
  | _ => none

/-- The step does not lose a transaction that holds an acceptance of the rail: a withdrawal that its
process has read again, and that the rail has then accepted from it, is still held afterwards, or
the step commits the change of it. -/
def RecordsAcceptance (w : State) (l : Event) : Prop :=
  ∀ p ∈ sessionAfter w l, ∀ row ∈ (w.sess p.1).rows, row.id ∈ (w.sess p.1).accepted →
    row.id ∈ p.2.rows.map (·.id) ∨ committer l = some p.1 ∧ row.id ∈ (w.sess p.1).changes

/-- Whether a step loses no acceptance of the rail is decidable. -/
instance (w : State) (l : Event) : Decidable (RecordsAcceptance w l) :=
  inferInstanceAs (Decidable (∀ p ∈ sessionAfter w l, _))

/-- Both conditions together. -/
def Orderly (w : State) (l : Event) : Prop := NoLateWrite w l ∧ RecordsAcceptance w l

/-- Whether a step meets both conditions is decidable. -/
instance (w : State) (l : Event) : Decidable (Orderly w l) := inferInstanceAs (Decidable (_ ∧ _))

/-! ## The invariant -/

/-- What is known about the row of a withdrawal that was paid. -/
inductive PaidRow (sess : ℕ → Session) (row : Withdrawal Ticks) : Prop
  | completed : row.status = .completed → PaidRow sess row
  | timedOut : row.TimedOut → PaidRow sess row
  | submitted : row.status = .submitted → PaidRow sess row
  /-- A sweep holds the row and knows that the rail has accepted. -/
  | held (j : ℕ) : row.status = .pending → row ∈ (sess j).rows → row.id ∈ (sess j).accepted →
      PaidRow sess row

/-- The invariant of payouts. -/
structure PaidOnce (w : State) : Prop where
  /-- No withdrawal is paid twice. -/
  nodup : (w.shared.payouts.map (·.withdrawalId)).Nodup
  /-- A paid withdrawal exists, and its row shows that it may have been paid. -/
  row : ∀ p ∈ w.shared.payouts, ∃ row ∈ w.shared.db.withdrawals, row.id = p.withdrawalId ∧
    PaidRow w.sess row
  /-- The creator of a paid withdrawal has seen the acceptance, or has not yet submitted. -/
  creator : ∀ p ∈ w.shared.payouts, ∀ j wd, (w.sess j).owned = some wd →
    wd.id = p.withdrawalId → wd.id ∈ (w.sess j).accepted ∨ wd.status = .pending

/-- A row stays as it is known while process `i` changes its session, if the process does not let go
of a row that it holds. -/
theorem PaidRow.update {sess : ℕ → Session} {row : Withdrawal Ticks} (h : PaidRow sess row) {i : ℕ}
    {σ' : Session} (hkeep : row ∈ (sess i).rows → row.id ∈ (sess i).accepted →
      row ∈ σ'.rows ∧ row.id ∈ σ'.accepted) : PaidRow (Function.update sess i σ') row := by
  cases h with
  | completed hs => exact .completed hs
  | timedOut hs => exact .timedOut hs
  | submitted hs => exact .submitted hs
  | held j hpending hrow hacc =>
      by_cases hj : j = i
      · subst hj
        obtain ⟨hrow', hacc'⟩ := hkeep hrow hacc
        exact .held j hpending (by simpa using hrow') (by simpa using hacc')
      · exact .held j hpending (by simpa [hj] using hrow) (by simpa [hj] using hacc)

/-- A pending row that was paid is held by the process that knows of it, and by no other. -/
theorem PaidRow.holder (h : WalletRun sha256 t₀ ok c) {row : Withdrawal Ticks}
    (hpaid : PaidRow c.sess row) (hpending : row.status = .pending) {i : ℕ}
    (hlock : .withdrawal row.id ∈ (c.sess i).locks) :
    row ∈ (c.sess i).rows ∧ row.id ∈ (c.sess i).accepted := by
  cases hpaid with
  | completed hs | submitted hs =>
      rw [hpending] at hs
      cases hs
  | timedOut hs =>
      have hs := hs.status
      rw [hpending] at hs
      cases hs
  | held j _ hrow hacc =>
      by_cases hj : j = i
      · subst hj
        exact ⟨hrow, hacc⟩
      · exact absurd hlock (locks_exclusive h hj (reread_current h hrow).1)

/-- A transaction holds the locks of what it changes. -/
theorem lock_of_change (h : WalletRun sha256 t₀ ok c) {i : ℕ} {id : UUID}
    (hid : id ∈ (c.sess i).changes) : .withdrawal id ∈ (c.sess i).locks := by
  obtain ⟨w, hw, hset⟩ := List.mem_filterMap.mp hid
  cases w with
  | setWithdrawal id' set =>
      cases hset
      exact locked_of_set h hw
  | _ => cases hset

/-- What an operation does to the withdrawals that its transaction has read again. -/
theorem TxStep.rows_cases {w : State} {i : ℕ} {σ σ' : Session} (h : TxStep w i σ σ') :
    σ'.rows = [] ∨ ∀ row ∈ σ.rows, row ∈ σ'.rows := by
  cases h with
  | ended _ _ hrows => exact .inl hrows
  | reread _ _ _ _ _ _ hrows => exact .inr fun row hrow => hrows ▸ List.mem_cons_of_mem _ hrow
  | same _ _ hrows | aborted _ _ hrows | locked _ _ _ _ hrows | balance _ _ _ _ _ hrows
  | inserted _ _ _ _ hrows | setDeposit _ _ _ _ hrows | setWithdrawal _ _ _ _ _ hrows =>
      exact .inr fun row hrow => hrows ▸ hrow

namespace PaidOnce

variable {i : ℕ} {o : Op} {r : Except Exc o.Out}

/-- An operation that neither commits nor pays keeps the invariant. -/
theorem quiet (hcall : WalletCall sha256 t₀ Orderly c i o r) (h : PaidOnce c.toWorld)
    (hcommitter : committer (.call i o r) = none)
    (hdb : (effect o r (c.sess i) c.shared).db = c.shared.db)
    (hpayouts : (effect o r (c.sess i) c.shared).payouts = c.shared.payouts)
    (howned : (after o r (c.sess i)).owned = (c.sess i).owned)
    (haccepted : (after o r (c.sess i)).accepted = (c.sess i).accepted) :
    PaidOnce ((wallet sha256).afterCall c.toWorld i o r) where
  nodup := by
    dsimp only [afterCall, wallet]
    rw [hpayouts]
    exact h.nodup
  row := by
    dsimp only [afterCall, wallet]
    rw [hpayouts, hdb]
    intro p hp
    obtain ⟨row, hrow, hid, hpaid⟩ := h.row p hp
    refine ⟨row, hrow, hid, hpaid.update fun hmem hacc => ⟨?_, haccepted ▸ hacc⟩⟩
    -- the condition rules out that the transaction has ended
    rcases (TxStep.of_ends hcall.enabled).rows_cases with hnil | hkeep
    · rcases hcall.allowed.2 _ rfl row hmem hacc with hheld | ⟨hcommit, -⟩
      · rw [hnil] at hheld
        cases hheld
      · rw [hcommitter] at hcommit
        cases hcommit
    · exact hkeep row hmem
  creator := by
    dsimp only [afterCall, wallet]
    rw [hpayouts]
    intro p hp j wd hwd
    by_cases hj : j = i
    · subst hj
      rw [Function.update_self] at hwd ⊢
      rw [haccepted]
      exact h.creator p hp j wd (howned ▸ hwd)
    · rw [Function.update_of_ne hj] at hwd ⊢
      exact h.creator p hp j wd hwd

/-- When the rail accepts a withdrawal, it has not accepted it before. -/
theorem not_paid (hrun : WalletRun sha256 t₀ Orderly c) (h : PaidOnce c.toWorld) {id : UUID}
    (hsend : Sendable (c.sess i) id) : ∀ p ∈ c.shared.payouts, p.withdrawalId ≠ id := by
  intro p hp hid
  cases hsend with
  | owner howned _ hsubmitted hnot =>
      rcases h.creator p hp i _ howned hid.symm with hacc | hpending
      · exact hnot hacc
      · rw [hsubmitted] at hpending
        cases hpending
  | @sweep row _ hrow hpending hnot =>
      obtain ⟨row', hrow', hid', hpaid⟩ := h.row p hp
      obtain ⟨hlock, hmem⟩ := reread_current hrun hrow
      obtain rfl := withdrawal_unique hrun row' hrow' row hmem (hid'.trans hid)
      exact hnot (hpaid.holder hrun hpending hlock).2

/-- When the rail accepts a withdrawal, its row is submitted, or timed out, or held by the sweep
that has sent it. -/
theorem paidRow_of_send (hrun : WalletRun sha256 t₀ Orderly c) {id : UUID}
    (hsend : Sendable (c.sess i) id) :
    ∃ row ∈ c.shared.db.withdrawals, row.id = id ∧
      PaidRow (Function.update c.sess i
        { c.sess i with accepted := id :: (c.sess i).accepted }) row := by
  have hok : ∀ w l, Orderly w l → NoLateWrite w l := fun _ _ h => h.1
  cases hsend with
  | @owner w howned _ hsubmitted _ =>
      by_cases hover : w.id ∈ c.shared.overtaken
      · obtain ⟨row, hrow, hid, hout⟩ := late_timedOut hok hrun howned hsubmitted hover
        exact ⟨row, hrow, hid, .timedOut hout⟩
      · exact ⟨w.stored, owned_current hrun howned hover, rfl, .submitted hsubmitted⟩
  | @sweep row _ hrow hpending _ =>
      exact ⟨row, (reread_current hrun hrow).2, rfl, .held i hpending (by simpa using hrow)
        (by simp)⟩

/-- When the rail accepts a withdrawal, its creator has sent it or has not yet submitted it. -/
theorem creator_of_send (hrun : WalletRun sha256 t₀ Orderly c) {id : UUID}
    (hsend : Sendable (c.sess i) id) {j : ℕ} {wd : Withdrawal Decimal}
    (hwd : (c.sess j).owned = some wd) (hid : wd.id = id) : j = i ∨ wd.status = .pending := by
  have hok : ∀ w l, Orderly w l → NoLateWrite w l := fun _ _ h => h.1
  cases hsend with
  | @owner w howned _ _ _ =>
      by_contra hne
      push Not at hne
      exact owned_disjoint hrun hne.1 hwd howned hid
  | @sweep row _ hrow hpending _ =>
      obtain ⟨-, hmem⟩ := reread_current hrun hrow
      refine .inr ?_
      by_cases hover : wd.id ∈ c.shared.overtaken
      · -- the row would be finished
        obtain ⟨row', hrow', hid', hterm⟩ := overtaken_terminal hok hrun wd.id hover
        obtain rfl := withdrawal_unique hrun row' hrow' row hmem (hid'.trans hid)
        rw [hpending] at hterm
        exact absurd hterm (by decide)
      · have hcur := owned_current hrun hwd hover
        have heq := withdrawal_unique hrun _ hcur row hmem hid
        rw [← heq] at hpending
        exact hpending

/-- The acceptance of the rail keeps the invariant. -/
theorem pay (hrun : WalletRun sha256 t₀ Orderly c) (h : PaidOnce c.toWorld) {id : UUID}
    (amount : Decimal) (reference : String) (hsend : Sendable (c.sess i) id) :
    PaidOnce
      { c.toWorld with
        shared := { c.shared with payouts := ⟨id, amount, reference⟩ :: c.shared.payouts }
        sess := Function.update c.sess i
          { c.sess i with accepted := id :: (c.sess i).accepted } } where
  nodup := by
    -- the withdrawal was not paid before, as the process could send it
    refine List.nodup_cons.mpr ⟨fun hmem => ?_, h.nodup⟩
    obtain ⟨p, hp, hid⟩ := List.mem_map.mp hmem
    exact h.not_paid hrun hsend p hp hid
  row := by
    intro p hp
    rcases List.mem_cons.mp hp with rfl | hp
    · exact paidRow_of_send hrun hsend
    · -- a withdrawal that was paid before is still held, or finished
      obtain ⟨row, hrow, hid, hpaid⟩ := h.row p hp
      exact ⟨row, hrow, hid, hpaid.update fun hmem hacc => ⟨hmem, List.mem_cons_of_mem _ hacc⟩⟩
  creator := by
    intro p hp j wd hwd hid
    have hwd' : (c.sess j).owned = some wd := by
      by_cases hj : j = i
      · subst hj
        simpa using hwd
      · simpa [hj] using hwd
    rcases List.mem_cons.mp hp with rfl | hp
    · -- the creator of the withdrawal is the caller, or it is still pending
      rcases creator_of_send hrun hsend hwd' hid with rfl | hpending
      · exact .inl (by simp [hid])
      · exact .inr hpending
    · refine (h.creator p hp j wd hwd' hid).imp_left fun hacc => ?_
      by_cases hj : j = i
      · subst hj
        simp [hacc]
      · simpa [hj] using hacc

/-- A paid withdrawal is not pending when its creator changes it. -/
theorem not_pending_of_changes (hrun : WalletRun sha256 t₀ Orderly c) {row : Withdrawal Ticks}
    (hpaid : PaidRow c.sess row) (hchange : row.id ∈ (c.sess i).changes)
    (hrows : (c.sess i).rows = []) : row.status ≠ .pending := by
  intro hpending
  have hheld := (hpaid.holder hrun hpending (lock_of_change hrun hchange)).1
  rw [hrows] at hheld
  cases hheld

/-- A transaction leaves the row of a paid withdrawal in one of the known states. -/
theorem paidRow_of_moves (hrun : WalletRun sha256 t₀ Orderly c) (h : PaidOnce c.toWorld)
    {p : Payout} (hp : p ∈ c.shared.payouts) {row row' : Withdrawal Ticks}
    (hrow : row ∈ c.shared.db.withdrawals) (hid : row.id = p.withdrawalId)
    (hpaid : PaidRow c.sess row) (hchange : row.id ∈ (c.sess i).changes)
    (hmoves : Moves (c.sess i) row row') {sess : ℕ → Session} : PaidRow sess row' := by
  have hcons := withdrawals_consistent (fun _ _ h => h.1) hrun row hrow
  have hlock := lock_of_change hrun hchange
  have hout := hmoves.timedOut_of_submitted hcons
  cases hmoves with
  | submitted _ _ hrows hpending =>
      exact absurd hpending (not_pending_of_changes hrun hpaid hchange hrows)
  | completed _ _ _ _ _ hset | recoveredCompleted _ _ hset => exact .completed hset
  | @compensated w howned hcur _ hsubmitted hnot =>
      -- the creator would have seen the acceptance
      subst hcur
      rcases h.creator p hp i w howned hid with hacc | hpending
      · exact absurd hacc hnot
      · rw [show w.status = .submitted from hsubmitted] at hpending
        cases hpending
  | recoveredCompensated _ _ _ hfrom =>
      rcases hfrom with ⟨hpending, hnot⟩ | ⟨hsubmitted, href⟩
      · exact absurd (hpaid.holder hrun hpending hlock).2 hnot
      · exact absurd (hcons.reference (by rw [hsubmitted]; decide)) href
  | timedOut hnone _ hsubmitted => exact .timedOut (hout hsubmitted hnone)

/-- A commit keeps the invariant. -/
theorem commit {T : Transaction} (hT : Commits sha256 t₀ Orderly c i T) (h : PaidOnce c.toWorld) :
    PaidOnce
      { c.toWorld with
        shared := c.shared.commit (c.sess i)
        sess := Function.update c.sess i (c.sess i).commit } where
  nodup := h.nodup
  row := by
    intro p hp
    obtain ⟨row, hrow, hid, hpaid⟩ := h.row p hp
    refine ⟨T.update row, hT.update_mem hrow, (T.update_id row).trans hid, ?_⟩
    rcases hT.update_cases (fun _ _ h => h.1) hrow with ⟨hnot, heq⟩ | ⟨hchange, hmoves⟩
    · rw [heq]
      refine hpaid.update fun hmem hacc => ?_
      rcases hT.allowed.2 _ rfl row hmem hacc with hheld | ⟨-, hchange⟩
      · cases hheld
      · exact absurd hchange hnot
    · exact h.paidRow_of_moves hT.run hp hrow hid hpaid hchange hmoves
  creator := by
    intro p hp j wd hwd hid
    dsimp only at hwd ⊢
    by_cases hj : j = i
    · subst hj
      rw [Function.update_self] at hwd ⊢
      obtain ⟨row, hrow, hrid, hpaid⟩ := h.row p hp
      rcases hT.owned_cases hwd with ⟨hnew, -⟩ | ⟨w, hw, rfl⟩
      · exact absurd (hrid.trans hid.symm) (hT.new_withdrawal hnew row hrow)
      · rw [T.update_id] at hid ⊢
        refine (h.creator p hp j w hw hid).imp_right fun hpending => ?_
        have hrw : row.id = w.id := hrid.trans hid.symm
        rcases hT.update_cases (fun _ _ h => h.1) hrow with ⟨hnot, -⟩ | ⟨hchange, hmoves⟩
        · -- the transaction does not touch the creator's object
          have hsame : T.update w = w := Transaction.update_of_ne fun u hu huid =>
            hnot ((Transaction.mem_changes hT.writes).mpr ⟨u, hu, huid.trans hrw.symm⟩)
          rw [hsame]
          exact hpending
        · cases hmoves with
          | submitted _ _ hrows hp' =>
              exact absurd hp' (not_pending_of_changes hT.run hpaid hchange hrows)
          | completed hw' heq _ hsub | compensated hw' heq _ hsub =>
              obtain rfl := Option.some.inj (hw.symm.trans hw')
              rw [← heq, show w.stored.status = .pending from hpending] at hsub
              cases hsub
          | recoveredCompleted hnone | recoveredCompensated hnone | timedOut hnone =>
              rw [hw] at hnone
              cases hnone
    · rw [Function.update_of_ne hj] at hwd ⊢
      exact h.creator p hp j wd hwd hid

/-- The loss of a process keeps the invariant, under the condition that it loses no acceptance. -/
theorem stop (hstop : RecordsAcceptance c.toWorld (.stop i)) (h : PaidOnce c.toWorld) :
    PaidOnce ((wallet sha256).afterStop c.toWorld i) where
  nodup := h.nodup
  row := by
    intro p hp
    obtain ⟨row, hrow, hid, hpaid⟩ := h.row p hp
    refine ⟨row, hrow, hid, hpaid.update fun hmem hacc => ?_⟩
    -- the loss of a process is one of the steps that the condition is about
    rcases hstop _ rfl row hmem hacc with hheld | ⟨hcommit, -⟩
    · cases hheld
    · cases hcommit
  creator := by
    intro p hp j wd hwd hid
    dsimp only [afterStop] at hwd ⊢
    -- the process that is lost owns nothing any more
    by_cases hj : j = i
    · subst hj
      rw [Function.update_self] at hwd
      cases hwd
    · rw [Function.update_of_ne hj] at hwd ⊢
      exact h.creator p hp j wd hwd hid

end PaidOnce

/-- Every operation keeps the invariant. -/
theorem PaidOnce.call {i : ℕ} {o : Op} {r : Except Exc o.Out}
    (hcall : WalletCall sha256 t₀ Orderly c i o r) (h : PaidOnce c.toWorld) :
    PaidOnce ((wallet sha256).afterCall c.toWorld i o r) := by
  by_cases hcommitter : committer (.call i o r) = none
  · -- no commit: at most a payment is accepted
    rcases (WalletStep.of_call hcall).commit_cases with
      ⟨hdb, -, -, howned, -⟩ | ⟨T, hT, hσ, hs⟩
    · rcases (WalletStep.of_call hcall).paid_cases with
        ⟨haccepted, hpayouts⟩ | ⟨id, amount, reference, hsend, hσ, hs⟩
      · exact h.quiet hcall hcommitter hdb hpayouts howned haccepted
      · simp only [afterCall, wallet, hσ, hs]
        exact h.pay hcall.run amount reference hsend
    · simp only [afterCall, wallet, hσ, hs]
      exact h.commit hT
  · -- a commit
    cases o with
    | commit =>
        cases r with
        | error e => exact absurd rfl hcommitter
        | ok u =>
            obtain ⟨T, hwrites, hjustified, hnarrated⟩ := hcall.guard
            exact h.commit ⟨hcall.run, hcall.allowed, hwrites, hjustified, hnarrated⟩
    | _ => exact absurd rfl hcommitter

/-- In every run under both conditions the invariant of payouts holds. -/
theorem paidOnce (h : WalletRun sha256 t₀ Orderly c) : PaidOnce c.toWorld := by
  refine h.invariant (abides sha256 t₀) ?_
  refine { init := ?_, spawn := ?_, call := ?_, stop := ?_, env := ?_ }
  · exact ⟨.nil, fun p hp => (nomatch hp), fun p hp => nomatch hp⟩
  · exact fun _ hI => ⟨hI.nodup, hI.row, hI.creator⟩
  · exact fun hcall hI => hI.call hcall
  · exact fun _ hI hok => hI.stop hok.2
  · rintro c _ - hI ⟨clock, redis, rfl, -⟩
    exact ⟨hI.nodup, hI.row, hI.creator⟩

/-! ## At most one payout -/

/-- In every run under both conditions the rail accepts each withdrawal at most once. -/
theorem paid_at_most_once (h : ReachesUnder sha256 Orderly c) :
    ∀ id, (c.shared.payouts.filter (·.withdrawalId = id)).length ≤ 1 := by
  obtain ⟨t₀, h⟩ := h
  exact fun id => length_filter_le_one (paidOnce h).nodup id

/-- A withdrawal that was completed was paid once. -/
theorem paid_at_most_once_completed :
    ∃ c, ReachesUnder Sha256.hexdigest Orderly c ∧ c.shared.payouts.length = 1 ∧
      ∀ id, (c.shared.payouts.filter (·.withdrawalId = id)).length ≤ 1 := by
  obtain ⟨c, hc, hlen⟩ := reachesUnder_of_played (P := fun c => c.shared.payouts.length = 1)
    (show (played Orderly (submittedSchedule ++ [.call 2 (.choose (.accept "ref"))] ++
      steps 2 9)).any _ = true by decide +kernel)
  exact ⟨c, hc, hlen, paid_at_most_once hc⟩

/-- A sweep has sent the withdrawal that was left pending, and stops before its commit. -/
def lostSchedule : Schedule :=
  reservedSchedule ++
    [.stop 2, .env (.wait 360000000), .spawn (.request (.recoverStuckWithdrawals {}))] ++
    steps 3 1 ++ [.call 3 (.choose (.claim [⟨9⟩]))] ++ steps 3 7 ++
    [.call 3 (.choose (.accept "first")), .stop 3]

/-- Without the conditions a withdrawal can be paid twice: the next sweep sends it again. -/
theorem paid_twice :
    ∃ c, Reaches Sha256.hexdigest c ∧ (c.shared.payouts.filter (·.withdrawalId = ⟨9⟩)).length = 2 :=
  reaches_of_played
    (show (played anyStep (lostSchedule ++ [.spawn (.request (.recoverStuckWithdrawals {}))] ++
      steps 4 1 ++ [.call 4 (.choose (.claim [⟨9⟩]))] ++ steps 4 7 ++
      [.call 4 (.choose (.accept "second"))])).any _ = true by decide +kernel)

/-! ## Refunds of paid withdrawals -/

/-- The rail has accepted the withdrawal. -/
def Shared.Paid (s : Shared) (id : UUID) : Prop := ∃ p ∈ s.payouts, p.withdrawalId = id

/-- Whether the rail has paid a withdrawal is decidable. -/
instance (s : Shared) (id : UUID) : Decidable (s.Paid id) :=
  inferInstanceAs (Decidable (∃ p ∈ s.payouts, _))

/-- In every run under both conditions, a withdrawal that was paid and refunded was refunded by the
hard timeout. -/
theorem refund_of_paid (h : ReachesUnder sha256 Orderly c) :
    ∀ w ∈ c.shared.db.withdrawals, c.shared.Paid w.id → c.shared.db.reversalLegs w.id ≠ [] →
      w.TimedOut := by
  obtain ⟨t₀, h⟩ := h
  rintro w hw ⟨p, hp, hpid⟩ hlegs
  have hfailed := failed_of_reversal (fun _ _ h => h.1) h w hw hlegs
  obtain ⟨row, hrow, hid, hpaid⟩ := (paidOnce h).row p hp
  obtain rfl := withdrawal_unique h row hrow w hw (hid.trans hpid)
  cases hpaid with
  | timedOut hout => exact hout
  | completed hs | submitted hs | held _ hs =>
      rw [hfailed] at hs
      cases hs

/-- The rail accepts the withdrawal, but Redis fails when the circuit breaker records the success,
so the creator ends without a record of the payment. A sweep finds the withdrawal 31 minutes later
and compensates for it. -/
def timedOutSchedule : Schedule :=
  submittedSchedule ++ [.call 2 (.choose (.accept "ref")), .call 2 (.choose .fail)] ++
    [.env (.wait 1860000000), .spawn (.request (.recoverStuckWithdrawals {}))] ++ steps 3 1 ++
    [.call 3 (.choose (.claim [⟨9⟩]))] ++ steps 3 16

/-- A withdrawal can be paid and refunded. -/
theorem paid_and_refunded :
    ∃ c, Reaches Sha256.hexdigest c ∧ ∃ w ∈ c.shared.db.withdrawals,
      c.shared.Paid w.id ∧ c.shared.db.reversalLegs w.id ≠ [] :=
  reaches_of_played (show (played anyStep timedOutSchedule).any _ = true by decide +kernel)

/-- A withdrawal that was paid, never recorded as such, and refunded after the timeout. -/
theorem refund_of_paid_timedOut :
    ∃ c, ReachesUnder Sha256.hexdigest Orderly c ∧ ∃ w ∈ c.shared.db.withdrawals,
      c.shared.Paid w.id ∧ c.shared.db.reversalLegs w.id ≠ [] ∧ w.TimedOut := by
  obtain ⟨c, hc, w, hw, hpaid, hlegs⟩ := reachesUnder_of_played
    (P := fun c => ∃ w ∈ c.shared.db.withdrawals,
      c.shared.Paid w.id ∧ c.shared.db.reversalLegs w.id ≠ [])
    (show (played Orderly timedOutSchedule).any _ = true by decide +kernel)
  exact ⟨c, hc, w, hw, hpaid, hlegs, refund_of_paid hc w hw hpaid hlegs⟩

end MiniWallet

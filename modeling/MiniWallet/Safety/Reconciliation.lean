import MiniWallet.Safety.Payouts

/-!
# Reconciliation of the ledger with the domain tables

The balance of an account is what the domain tables say it should be: its seeds and deposits, the
transfers to it and from it, and the withdrawals that have not failed. The books account for each
table; what remains is that the withdrawals which were refunded are exactly those which have failed,
and this holds while the creator of a withdrawal leaves it alone once a sweep has read it again.

* `HandlerYields`: the condition on a step.
* `reversals_perm`: the reversals of the books are those of the failed withdrawals.
* `balance_reconciles`: the equation.
-/

namespace MiniWallet

open Numeric Bookkeeping Process System State

variable {sha256 : String → String} {t₀ : Time} {ok : State → Event → Prop} {c : Wallet}

/-! ## The condition -/

/-- The step is not the commit of a creator that changes a withdrawal which has been read again. -/
def HandlerYields (w : State) (l : Event) : Prop :=
  ∀ i ∈ committer l, ∀ id ∈ (w.sess i).changes, (w.sess i).owns id → id ∉ w.shared.reread

/-- Whether a handler yields to the sweep in a step is decidable. -/
instance (w : State) (l : Event) : Decidable (HandlerYields w l) :=
  inferInstanceAs (Decidable (∀ i ∈ committer l, _))

/-- A withdrawal that a transaction has read again is on record as such. -/
theorem reread_of_after {w : State} {i : ℕ} {o : Op} {r : Except Exc o.Out} (h : Ends w i o r) :
    ∀ row ∈ (after o r (w.sess i)).rows, row ∈ (w.sess i).rows ∨
      row.id ∈ (effect o r (w.sess i) w.shared).reread := by
  intro row hrow
  cases o with
  | lockWithdrawal id =>
      rcases ends_lockWithdrawal h with ⟨rfl, -⟩ | rfl
      · cases hfound : (view w i).withdrawalById id with
        | none =>
            rw [hfound] at hrow
            exact .inl hrow
        | some row' =>
            rw [hfound] at hrow
            change row ∈ ((w.sess i).readAgain row').rows at hrow
            simp only [Session.readAgain] at hrow
            split at hrow
            · -- the row is read again, so it counts from now on
              rcases List.mem_cons.mp hrow with rfl | hrow
              · exact .inr (List.mem_cons_self ..)
              · exact .inl hrow
            · exact .inl hrow
      · cases hrow
  | select q =>
      cases r with
      -- no other operation reads a withdrawal again
      | error e => cases hrow
      | ok x =>
          change row ∈ ((w.sess i).learn q x).rows at hrow
          refine .inl ?_
          cases q <;> simp only [Session.learn] at hrow
          all_goals first | exact hrow | (split at hrow <;> exact hrow)
  | lockAccount id =>
      cases r with
      | error e => cases hrow
      | ok a => cases a <;> exact .inl hrow
  | write wr =>
      change row ∈ ((w.sess i).afterWrite wr r).rows at hrow
      unfold Session.afterWrite at hrow
      split at hrow
      · cases wr <;> exact .inl hrow
      · cases hrow
      · exact .inl hrow
  | commit => cases r <;> cases hrow
  | rollback => cases hrow
  | claimStuck cutoff limit =>
      cases r with
      | error e => cases hrow
      | ok ids => exact .inl hrow
  | cacheSet key entry | breaker command | queryStatus ref => exact .inl hrow
  | now | uuid4 | cacheGet key | sendWithdrawal id amount destination =>
      cases r <;> exact .inl hrow

/-- What is on record as read again stays so. -/
theorem reread_mono {i : ℕ} {o : Op} {r : Except Exc o.Out} (h : WalletCall sha256 t₀ ok c i o r)
    {id : UUID} (hid : id ∈ c.shared.reread) : id ∈ (effect o r (c.sess i) c.shared).reread := by
  cases WalletStep.of_call h with
  | reread row _ _ _ hs =>
      rw [hs]
      exact List.mem_cons_of_mem _ hid
  | quiet _ _ hs | drew _ _ _ hs | saw _ _ hs | cached _ _ _ _ hs | paid _ _ _ _ _ hs
  | committed _ _ _ hs => rwa [hs]

/-- What a transaction holds as read again is on record. -/
theorem reread_of_rows (h : WalletRun sha256 t₀ ok c) {i : ℕ} {row : Withdrawal Ticks}
    (hrow : row ∈ (c.sess i).rows) : row.id ∈ c.shared.reread := by
  refine h.each (abides sha256 t₀) (J := fun s σ => ∀ row ∈ σ.rows, row.id ∈ s.reread) ?_ i row hrow
  refine { init := ?_, own := ?_, other := ?_, env := ?_ }
  · exact fun row hrow => nomatch hrow
  · intro c i o r hcall hJ row hrow
    rcases reread_of_after hcall.enabled row hrow with hrow | hid
    · exact reread_mono hcall (hJ i row hrow)
    · exact hid
  · exact fun hcall hJ _ row hrow => reread_mono hcall (hJ _ row hrow)
  · rintro c _ σ - hJ ⟨clock, redis, rfl, -⟩
    exact hJ

/-- Only a withdrawal that was read again can have been changed by another process than its
creator. -/
theorem overtaken_reread (h : WalletRun sha256 t₀ ok c) :
    ∀ id ∈ c.shared.overtaken, id ∈ c.shared.reread := by
  refine h.invariant (abides sha256 t₀)
    (I := fun w => ∀ id ∈ w.shared.overtaken, id ∈ w.shared.reread) ?_
  refine { init := ?_, spawn := fun _ hI => hI, call := ?_, stop := fun _ hI _ => hI, env := ?_ }
  · exact fun id hid => nomatch hid
  · intro c i o r hcall hI id hid
    dsimp only [afterCall, wallet] at hid ⊢
    refine reread_mono hcall ?_
    rcases (WalletStep.of_call hcall).commit_cases with ⟨-, hover, -⟩ | ⟨T, hT, -, hs⟩
    · exact hI id (hover ▸ hid)
    · rw [hs] at hid
      rcases List.mem_append.mp hid with hid | hid
      · -- the step is a commit that changes a withdrawal of another process
        obtain ⟨hchange, hnot⟩ := List.mem_filter.mp hid
        obtain ⟨u, hu, rfl⟩ := (Transaction.mem_changes hT.writes).mp hchange
        cases hT.justified with
        | submitted howned | completed howned | compensated howned =>
            cases hu
            simp [Session.owns, howned] at hnot
        -- only a sweep commits such a change, and it has read the row before
        | recoveredCompleted _ hrow | recoveredCompensated _ hrow =>
            cases hu
            exact reread_of_rows hcall.run hrow
        | _ => cases hu
      · exact hI id hid
  · rintro c _ - hI ⟨clock, redis, rfl, -⟩
    exact hI

/-- A creator that leaves a withdrawal alone once it has been read again writes nothing late. -/
theorem noLateWrite_of_handlerYields (h : WalletRun sha256 t₀ HandlerYields c) :
    WalletRun sha256 t₀ NoLateWrite c :=
  h.imp fun hrun hyields i hi id hchange howns hover =>
    hyields i hi id hchange howns (overtaken_reread hrun id hover)

/-! ## Balances by kind of movement -/

/-- What the movements of one kind contribute to a balance. -/
def kindBalance (js : List (Entry Ticks)) (kind : EntryType) (a : UUID) : Ticks :=
  balance ((movements js kind).map Movement.toPosting) a

/-- A balance is the sum of what the kinds of movements contribute. -/
theorem balance_by_kind (js : List (Entry Ticks)) (a : UUID) :
    balance (postings js) a = kindBalance js .seed a + kindBalance js .deposit a +
      kindBalance js .transfer a + kindBalance js .withdrawal a +
      kindBalance js .withdrawalReversal a := by
  have hcons : ∀ (e : Entry Ticks) (js : List (Entry Ticks)) (kind : EntryType),
      kindBalance (e :: js) kind a =
        (if e.movement.kind = kind then e.movement.effect a else 0) + kindBalance js kind a := by
    intro e js kind
    by_cases hkind : e.movement.kind = kind <;> simp [kindBalance, movements, hkind]
  induction js with
  | nil => rfl
  | cons e js ih =>
      rw [postings_cons, balance_cons, ih]
      simp only [hcons]
      cases e.movement.kind <;> simp <;> abel

/-- What the movements of the rows of a table contribute to a balance. -/
theorem balance_rows {β : Type} (rows : List β) (move : β → Movement Ticks) (a : UUID) :
    balance ((rows.map move).map Movement.toPosting) a =
      ((rows.filter fun b => (move b).target = a).map fun b => (move b).amount).sum -
        ((rows.filter fun b => (move b).source = a).map fun b => (move b).amount).sum := by
  rw [balance_eq_sub, List.map_map, List.filter_map, List.filter_map, List.map_map, List.map_map]
  rfl

/-- Movements that account for the rows of a table contribute what the rows do. -/
theorem kindBalance_rows {β : Type} {js : List (Entry Ticks)} {kind : EntryType} {rows : List β}
    {move : β → Movement Ticks} (h : (movements js kind).Perm (rows.map move)) (a : UUID) :
    kindBalance js kind a =
      ((rows.filter fun b => (move b).target = a).map fun b => (move b).amount).sum -
        ((rows.filter fun b => (move b).source = a).map fun b => (move b).amount).sum := by
  rw [kindBalance, balance_perm a (h.map _), balance_rows]

/-! ## The sides of the equation -/

namespace Database

variable (db : Database) (a : UUID)

/-- The seeds credited to an account. -/
def seedCredits : Ticks :=
  ((db.ledgerEntries.filter fun l =>
    l.entryType = .seed ∧ l.direction = .credit ∧ l.accountId = a).map (·.amount)).sum

/-- The completed deposits to an account. -/
def completedDeposits : Ticks :=
  ((db.deposits.filter fun d => d.status = .completed ∧ d.accountId = a).map (·.amount)).sum

/-- The completed transfers to an account. -/
def completedTransfersTo : Ticks :=
  ((db.transfers.filter fun t => t.status = .completed ∧ t.toAccountId = a).map (·.amount)).sum

/-- The completed transfers from an account. -/
def completedTransfersFrom : Ticks :=
  ((db.transfers.filter fun t => t.status = .completed ∧ t.fromAccountId = a).map (·.amount)).sum

/-- The withdrawals from an account that have not failed. -/
def standingWithdrawals : Ticks :=
  ((db.withdrawals.filter fun w => w.status ≠ .failed ∧ w.accountId = a).map (·.amount)).sum

end Database

/-- A sum over some rows splits into the rows that satisfy a condition and the others. -/
theorem sum_filter_split {β : Type} (rows : List β) (p q : β → Prop) [DecidablePred p]
    [DecidablePred q] (f : β → Ticks) :
    ((rows.filter fun b => q b).map f).sum =
      ((rows.filter fun b => p b ∧ q b).map f).sum +
        ((rows.filter fun b => ¬ p b ∧ q b).map f).sum := by
  induction rows with
  | nil => rfl
  | cons b rows ih =>
      by_cases hp : p b <;> by_cases hq : q b <;> simp [hp, hq, ih] <;> abel

section Sides

variable {db : Database} {js : List (Entry Ticks)} {a : UUID}

/-- The seeds of an account sum up to its seed credits. -/
theorem kindBalance_seed (h : Books db js) (ha : a ≠ systemAccountId) :
    kindBalance js .seed a = db.seedCredits a := by
  have hseeds : ∀ e ∈ js, e.movement.kind = .seed → e.movement.source = systemAccountId :=
    fun e he hkind => (h.seeds e he hkind).1
  rw [Database.seedCredits, ((h.ledger.filter _).map _).sum_eq, kindBalance]
  clear h
  induction js with
  | nil => rfl
  | cons e js ih =>
      have hrest := ih fun e' he' => hseeds e' (List.mem_cons_of_mem _ he')
      have hd := e.double
      rw [List.flatMap_cons, List.filter_append, List.map_append, List.sum_append, ← hrest]
      by_cases hkind : e.movement.kind = .seed
      · -- only the credit leg counts, and the source is the system account
        have hsource := hseeds e (List.mem_cons_self ..) hkind
        by_cases htarget : e.movement.target = a <;>
          simp [movements, Entry.legs, Posting.effect, hkind, hsource, htarget, ha.symm,
            hd.debit_direction, hd.credit_direction, hd.credit_kind, hd.credit_account,
            hd.credit_amount]
      · simp [movements, Entry.legs, hkind, hd.debit_kind, hd.credit_kind]

/-- The deposits of an account sum up to its completed deposits. -/
theorem kindBalance_deposit (h : Books db js) (ha : a ≠ systemAccountId) :
    kindBalance js .deposit a = db.completedDeposits a := by
  rw [kindBalance_rows h.deposits, Database.completedDeposits, List.filter_filter]
  simp [Deposit.movement, ha.symm, Bool.and_comm]
  rfl

/-- The transfers of an account sum up to what came in less what went out. -/
theorem kindBalance_transfer (h : Books db js) :
    kindBalance js .transfer a = db.completedTransfersTo a - db.completedTransfersFrom a := by
  rw [kindBalance_rows h.transfers, Database.completedTransfersTo, Database.completedTransfersFrom,
    List.filter_filter, List.filter_filter]
  simp [Transfer.movement, Bool.and_comm]
  rfl

/-- The withdrawals of an account sum up to the amounts in their table. -/
theorem kindBalance_withdrawal (h : Books db js) (ha : a ≠ systemAccountId) :
    kindBalance js .withdrawal a =
      -((db.withdrawals.filter fun w => w.accountId = a).map (·.amount)).sum := by
  rw [kindBalance_rows h.reservations]
  simp [Withdrawal.reservation, ha.symm]
  rfl

end Sides

/-! ## Refunds -/

/-- In every run without late writes the reversals of the books are those of the failed
withdrawals. -/
theorem reversals_perm (h : WalletRun sha256 t₀ NoLateWrite c) {js : List (Entry Ticks)}
    (hjs : Books c.shared.db js) :
    (movements js .withdrawalReversal).Perm
      ((c.shared.db.withdrawals.filter (·.status = .failed)).map Withdrawal.reversal) := by
  have hnodup : js.Nodup := List.Nodup.of_map _ hjs.transactionIds
  have hunique := withdrawal_unique h
  refine (List.perm_ext_iff_of_nodup ?_ ?_).mpr fun m => ⟨fun hm => ?_, fun hm => ?_⟩
  · -- two entries with the same movement refund the same withdrawal
    rw [movements, List.filter_map]
    refine (hnodup.filter _).map_on fun e he e' he' heq => ?_
    obtain ⟨he, hkind⟩ := List.mem_filter.mp he
    obtain ⟨he', hkind'⟩ := List.mem_filter.mp he'
    obtain ⟨w, hw, hrev⟩ := hjs.reversals e he (by simpa using hkind)
    obtain ⟨w', hw', hrev'⟩ := hjs.reversals e' he' (by simpa using hkind')
    have hid : w.id = w'.id := by
      have hmove : w.reversal = w'.reversal := by rw [← hrev.1, ← hrev'.1, heq]
      exact Option.some.inj (congrArg Movement.reference hmove)
    obtain rfl := hunique w hw w' hw' hid
    exact reversal_unique h hjs he he' hrev hrev'
  · have hids := (unique_columns h).withdrawal_id
    refine (List.Nodup.of_map _ hids |>.filter _).map_on fun w hw w' hw' heq => ?_
    have hid : w.id = w'.id := Option.some.inj (congrArg Movement.reference heq)
    exact hunique w (List.mem_of_mem_filter hw) w' (List.mem_of_mem_filter hw') hid
  · -- what was refunded has failed
    obtain ⟨hmem, hkind⟩ := List.mem_filter.mp hm
    obtain ⟨e, he, rfl⟩ := List.mem_map.mp hmem
    have hkind : e.movement.kind = .withdrawalReversal := by simpa using hkind
    obtain ⟨w, hw, hrev⟩ := hjs.reversals e he hkind
    have href : e.movement.reference = some w.id := by
      rw [hrev.1]
      rfl
    have hleg : e.debit ∈ c.shared.db.reversalLegs w.id := by
      refine List.mem_filter.mpr ⟨hjs.mem_ledger he (by simp [Entry.legs]), ?_⟩
      simp [e.double.debit_kind, e.double.debit_reference, hkind, href]
    have hfailed := failed_of_reversal (fun _ _ h => h) h w hw (List.ne_nil_of_mem hleg)
    exact List.mem_map.mpr ⟨w, List.mem_filter.mpr ⟨hw, by simpa using hfailed⟩, hrev.1.symm⟩
  · -- what has failed was refunded
    obtain ⟨w, hw, rfl⟩ := List.mem_map.mp hm
    obtain ⟨hw, hfailed⟩ := List.mem_filter.mp hw
    obtain ⟨e, he, hrev⟩ := hjs.refunds w hw (by simpa using hfailed)
    refine List.mem_filter.mpr ⟨List.mem_map.mpr ⟨e, he, hrev.1⟩, ?_⟩
    simp [Withdrawal.reversal]

/-- In every run without late writes, reservations and refunds together take from an account the
withdrawals that have not failed. -/
theorem kindBalance_standing (h : WalletRun sha256 t₀ NoLateWrite c) {js : List (Entry Ticks)}
    (hjs : Books c.shared.db js) {a : UUID} (ha : a ≠ systemAccountId) :
    kindBalance js .withdrawal a + kindBalance js .withdrawalReversal a =
      -c.shared.db.standingWithdrawals a := by
  have hrefunds : kindBalance js .withdrawalReversal a =
      ((c.shared.db.withdrawals.filter fun w => w.status = .failed ∧ w.accountId = a).map
        (·.amount)).sum := by
    rw [kindBalance_rows (reversals_perm h hjs), List.filter_filter]
    simp [Withdrawal.reversal, ha.symm, Bool.and_comm]
    rfl
  rw [kindBalance_withdrawal hjs ha, hrefunds, Database.standingWithdrawals,
    sum_filter_split c.shared.db.withdrawals
      (fun w => w.status = .failed) (fun w => w.accountId = a)]
  abel

/-- Reconciliation: in every run in which the creator of a withdrawal leaves it alone once a sweep
has read it again, the balance of every account but the system account is what the tables say. -/
theorem balance_reconciles (h : ReachesUnder sha256 HandlerYields c) :
    ∀ a, a ≠ systemAccountId →
      c.shared.db.getBalance a =
        c.shared.db.seedCredits a + c.shared.db.completedDeposits a +
          c.shared.db.completedTransfersTo a - c.shared.db.completedTransfersFrom a -
          c.shared.db.standingWithdrawals a := by
  obtain ⟨t₀, h⟩ := h
  intro a ha
  have hlate := noLateWrite_of_handlerYields h
  obtain ⟨js, hjs⟩ := books_kept h
  -- a withdrawal and its refund cancel each other
  have hstanding := kindBalance_standing hlate hjs ha
  calc c.shared.db.getBalance a = balance (postings js) a := getBalance_eq_balance hjs.ledger a
    _ = kindBalance js .seed a + kindBalance js .deposit a + kindBalance js .transfer a +
          (kindBalance js .withdrawal a + kindBalance js .withdrawalReversal a) := by
        -- the balance is the sum over the kinds of movements
        rw [balance_by_kind, add_assoc _ (kindBalance js .withdrawal a)]
    _ = _ := by
        rw [hstanding, kindBalance_seed hjs ha, kindBalance_deposit hjs ha,
          kindBalance_transfer hjs]
        abel

/-- The balance reconciles while a withdrawal of 40 dollars is submitted. -/
theorem balance_reconciles_submitted :
    ∃ c, ReachesUnder Sha256.hexdigest HandlerYields c ∧
      c.shared.db.standingWithdrawals ⟨1⟩ = 400000 ∧ ∀ a, a ≠ systemAccountId →
      c.shared.db.getBalance a =
        c.shared.db.seedCredits a + c.shared.db.completedDeposits a +
          c.shared.db.completedTransfersTo a - c.shared.db.completedTransfersFrom a -
          c.shared.db.standingWithdrawals a := by
  obtain ⟨c, hc, hstanding⟩ := reachesUnder_of_played
    (P := fun c => c.shared.db.standingWithdrawals ⟨1⟩ = 400000)
    (show (played HandlerYields submittedSchedule).any _ = true by decide +kernel)
  exact ⟨c, hc, hstanding, balance_reconciles hc⟩

end MiniWallet

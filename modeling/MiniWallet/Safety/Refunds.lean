import MiniWallet.Safety.Uniqueness

/-!
# No double refund

Two implementations compensate for a withdrawal, one in the process that created it and one in the
recovery worker. Both put the same idempotency key on the reversal, so at most one of them can
commit, and each commits the reversal together with the status.

* `reversal_unique`: a withdrawal is refunded by at most one entry of the books.
* `netEffect_eq`: what a withdrawal has taken from its account is its amount, or nothing once it has
  been refunded.
* `no_double_refund`: the result for the ledger.
-/

namespace MiniWallet

open Numeric Bookkeeping Process System State

variable {sha256 : String → String} {t₀ : Time} {ok : State → Event → Prop} {c : Wallet}

namespace Database

/-- The reversal legs of a withdrawal. -/
def reversalLegs (db : Database) (id : UUID) : List (LedgerEntry Ticks) :=
  db.ledgerEntries.filter fun l => l.entryType = .withdrawalReversal ∧ l.referenceId = some id

/-- What all legs of a withdrawal have done to the balance of its account. -/
def netEffect (db : Database) (w : Withdrawal Ticks) : Ticks :=
  ((db.ledgerEntries.filter (·.referenceId = some w.id)).map
    (LedgerEntry.contribution w.accountId)).sum

end Database

/-! ## Entries of a withdrawal -/

section Entries

variable {js : List (Entry Ticks)} {w : Withdrawal Ticks}

/-- The reversal entries of a withdrawal refund that withdrawal. -/
theorem reverses_of_reference (h : WalletRun sha256 t₀ ok c) (hjs : Books c.shared.db js)
    (hw : w ∈ c.shared.db.withdrawals) {e : Entry Ticks} (he : e ∈ js)
    (hkind : e.movement.kind = .withdrawalReversal) (href : e.movement.reference = some w.id) :
    e.Reverses w := by
  obtain ⟨w', hw', hrev⟩ := hjs.reversals e he hkind
  have hid : w'.id = w.id := by
    rw [hrev.1] at href
    exact Option.some.inj href
  exact withdrawal_unique h w' hw' w hw hid ▸ hrev

/-- A withdrawal is refunded by at most one entry. -/
theorem reversal_unique (h : WalletRun sha256 t₀ ok c) (hjs : Books c.shared.db js)
    {e e' : Entry Ticks} (he : e ∈ js) (he' : e' ∈ js) (hrev : e.Reverses w)
    (hrev' : e'.Reverses w) : e = e' := by
  -- both credit legs carry the key of the reversal
  have hcredit : e.credit = e'.credit :=
    ledger_unique h (hjs.mem_ledger he (by simp [Entry.legs]))
      (hjs.mem_ledger he' (by simp [Entry.legs])) hrev.2.2 hrev'.2.2
  refine List.inj_on_of_nodup_map hjs.transactionIds he he' ?_
  calc e.transactionId = e.credit.transactionId := e.double.transactionId.symm
    _ = e'.credit.transactionId := by rw [hcredit]
    _ = e'.transactionId := e'.double.transactionId

/-- The entries that refund the withdrawal with a given identifier. -/
def reversalsOf (js : List (Entry Ticks)) (id : UUID) : List (Entry Ticks) :=
  js.filter fun e => e.movement.kind = .withdrawalReversal ∧ e.movement.reference = some id

/-- The entries that give a withdrawal back. -/
theorem mem_reversalsOf {id : UUID} {e : Entry Ticks} :
    e ∈ reversalsOf js id ↔ e ∈ js ∧ e.movement.kind = .withdrawalReversal ∧
      e.movement.reference = some id := by
  simp [reversalsOf]

/-- A withdrawal has been refunded by no entry or by one. -/
theorem reversals_cases (h : WalletRun sha256 t₀ ok c) (hjs : Books c.shared.db js)
    (hw : w ∈ c.shared.db.withdrawals) :
    reversalsOf js w.id = [] ∨ ∃ e ∈ js, e.Reverses w ∧ reversalsOf js w.id = [e] := by
  have hnodup : js.Nodup := List.Nodup.of_map _ hjs.transactionIds
  have hrev : ∀ e ∈ reversalsOf js w.id, e ∈ js ∧ e.Reverses w := by
    intro e he
    obtain ⟨he, hkind, href⟩ := mem_reversalsOf.mp he
    exact ⟨he, reverses_of_reference h hjs hw he hkind href⟩
  have hone : (reversalsOf js w.id).length ≤ 1 :=
    length_le_one_of_forall_eq (hnodup.filter _) fun e he e' he' =>
      reversal_unique h hjs (hrev e he).1 (hrev e' he').1 (hrev e he).2 (hrev e' he').2
  match hsel : reversalsOf js w.id with
  | [] => exact .inl rfl
  | [e] =>
      obtain ⟨he, hrev⟩ := hrev e (hsel ▸ List.mem_singleton_self e)
      exact .inr ⟨e, he, hrev, rfl⟩
  | _ :: _ :: _ => simp [hsel] at hone

/-- The only reservation under the identifier of a withdrawal is its own. -/
theorem reservation_filter (h : WalletRun sha256 t₀ ok c) (hjs : Books c.shared.db js)
    (hw : w ∈ c.shared.db.withdrawals) :
    ((movements js .withdrawal).filter (·.reference = some w.id)).Perm [w.reservation] := by
  refine (hjs.reservations.filter _).trans ?_
  have hone := filter_eq_singleton (unique_columns h).withdrawal_id hw
  have hsame : ((fun m : Movement Ticks => decide (m.reference = some w.id)) ∘
      Withdrawal.reservation) = fun w' => decide (w'.id = w.id) := by
    funext w'
    simp [Withdrawal.reservation]
  rw [List.filter_map, hsame, hone]
  exact .refl _

/-- A movement under the identifier of a withdrawal reserves or refunds. -/
theorem kind_of_reference (hjs : Books c.shared.db js) (hw : w ∈ c.shared.db.withdrawals)
    {e : Entry Ticks} (he : e ∈ js) (href : e.movement.reference = some w.id) :
    e.movement.kind = .withdrawal ∨ e.movement.kind = .withdrawalReversal := by
  have hmem : ∀ kind, e.movement.kind = kind → e.movement ∈ movements js kind := by
    intro kind hkind
    simpa [movements, hkind] using ⟨e, he, rfl⟩
  cases hkind : e.movement.kind with
  | withdrawal => exact .inl rfl
  | withdrawalReversal => exact .inr rfl
  -- a seed has no reference
  | seed =>
      rw [(hjs.seeds e he hkind).2.1] at href
      cases href
  -- a transfer or a deposit refers to its own row, and no withdrawal has its identifier
  | transfer =>
      obtain ⟨t, ht, hmove⟩ := List.mem_map.mp (hjs.transfers.mem_iff.mp (hmem _ hkind))
      rw [← hmove] at href
      exact absurd (Option.some.inj href) ((hjs.distinct w hw).1 t (List.mem_of_mem_filter ht))
  | deposit =>
      obtain ⟨d, hd, hmove⟩ := List.mem_map.mp (hjs.deposits.mem_iff.mp (hmem _ hkind))
      rw [← hmove] at href
      exact absurd (Option.some.inj href) ((hjs.distinct w hw).2 d (List.mem_of_mem_filter hd))

/-- The movements under the identifier of a withdrawal are its reservation and its refunds. -/
theorem movements_of_withdrawal (h : WalletRun sha256 t₀ ok c) (hjs : Books c.shared.db js)
    (hw : w ∈ c.shared.db.withdrawals) :
    ((js.filter (·.movement.reference = some w.id)).map (·.movement)).Perm
      (w.reservation :: (reversalsOf js w.id).map (·.movement)) := by
  -- split the entries by their kind
  have hsplit := List.filter_append_perm (fun e : Entry Ticks => e.movement.kind = .withdrawal)
    (js.filter (·.movement.reference = some w.id))
  have hreserved : ((js.filter (·.movement.reference = some w.id)).filter
      (fun e => e.movement.kind = .withdrawal)).map (·.movement) =
      (movements js .withdrawal).filter (·.reference = some w.id) := by
    rw [movements, List.filter_map, List.filter_map, List.filter_filter, List.filter_filter]
    refine congrArg (List.map _) (List.filter_congr fun e _ => ?_)
    simp [Bool.and_comm]
  have hrefunds : (js.filter (·.movement.reference = some w.id)).filter
      (fun e => !decide (e.movement.kind = .withdrawal)) = reversalsOf js w.id := by
    rw [reversalsOf, List.filter_filter]
    refine List.filter_congr fun e he => ?_
    by_cases href : e.movement.reference = some w.id
    · rcases kind_of_reference hjs hw he href with hkind | hkind <;> simp [hkind, href]
    · simp [href]
  refine (hsplit.symm.map _).trans ?_
  rw [List.map_append, hreserved, hrefunds]
  exact (reservation_filter h hjs hw).append_right _

/-- The net effect of a withdrawal on its account is that of its movements. -/
theorem netEffect_eq (hjs : Books c.shared.db js) (w : Withdrawal Ticks) :
    c.shared.db.netEffect w =
      balance (postings (js.filter (·.movement.reference = some w.id))) w.accountId := by
  have hlegs : (js.flatMap Entry.legs).filter (·.referenceId = some w.id) =
      (js.filter (·.movement.reference = some w.id)).flatMap Entry.legs :=
    filter_legs fun e _ l hl => by rw [Entry.reference_of_mem hl]
  rw [Database.netEffect, ((hjs.ledger.filter _).map _).sum_eq, hlegs, sum_contribution_legs]

end Entries

/-! ## The result -/

/-- What the ledger says about the refunds of a withdrawal. -/
structure RefundedOnce (db : Database) (w : Withdrawal Ticks) : Prop where
  /-- There is at most one pair of reversal legs. -/
  atMostOnce : AtMostOnePair (db.reversalLegs w.id)
  /-- A failed withdrawal has such a pair, of its amount and to its account. -/
  failed : w.status = .failed → ∃ d k, Paired d k ∧ (db.reversalLegs w.id).Perm [d, k] ∧
    d.accountId = systemAccountId ∧ k.accountId = w.accountId ∧ k.amount = w.amount
  /-- All legs together have taken the amount from the account, or nothing. -/
  net : db.netEffect w = -w.amount ∨ db.netEffect w = 0

/-- No double refund: in every reachable state every withdrawal has been refunded at most once, and
a failed one has been refunded. -/
theorem no_double_refund (h : Reaches sha256 c) :
    ∀ w ∈ c.shared.db.withdrawals, RefundedOnce c.shared.db w := by
  obtain ⟨t₀, h⟩ := h
  obtain ⟨js, hjs⟩ := books_kept h
  intro w hw
  have hlegs : (c.shared.db.reversalLegs w.id).Perm
      ((reversalsOf js w.id).flatMap Entry.legs) := by
    refine (hjs.ledger.filter _).trans ?_
    rw [filter_legs (q := fun e => e.movement.kind = .withdrawalReversal ∧
      e.movement.reference = some w.id) fun e _ l hl => by
        rw [Entry.kind_of_mem hl, Entry.reference_of_mem hl]]
    rfl
  have hpostings : (postings (js.filter (·.movement.reference = some w.id))).Perm
      (w.reservation.toPosting :: postings (reversalsOf js w.id)) := by
    simpa [postings, Function.comp_def] using
      (movements_of_withdrawal h hjs hw).map Movement.toPosting
  have haccount := hjs.accounts w hw
  have hreserve : w.reservation.effect w.accountId = -w.amount := by
    simp [Posting.effect, Withdrawal.reservation, haccount.symm]
  have hrefund : w.reversal.effect w.accountId = w.amount := by
    simp [Posting.effect, Withdrawal.reversal, haccount.symm]
  have hnet : c.shared.db.netEffect w =
      -w.amount + balance (postings (reversalsOf js w.id)) w.accountId := by
    rw [netEffect_eq hjs w, balance_perm w.accountId hpostings, balance_cons, hreserve]
  rcases reversals_cases h hjs hw with hnone | ⟨e, he, hrev, hone⟩
  · refine ⟨.inl ?_, fun hfailed => ?_, .inl ?_⟩
    · rw [hnone] at hlegs
      exact hlegs.eq_nil
    · -- a failed withdrawal has an entry that refunds it
      obtain ⟨e, he, hrev⟩ := hjs.refunds w hw hfailed
      have hmem : e ∈ reversalsOf js w.id := by
        rw [mem_reversalsOf, hrev.1]
        exact ⟨he, rfl, rfl⟩
      rw [hnone] at hmem
      cases hmem
    · rw [hnet, hnone]
      simp [postings]
  · rw [hone, List.flatMap_singleton] at hlegs
    refine ⟨.inr ?_, fun _ => ?_, .inr ?_⟩
    · exact ⟨e.debit, e.credit, hjs.paired he, e.double.transactionId.symm, hlegs⟩
    · refine ⟨e.debit, e.credit, hjs.paired he, hlegs, ?_, ?_, ?_⟩
      · rw [e.double.debit_account, hrev.1]
        rfl
      · rw [e.double.credit_account, hrev.1]
        rfl
      · rw [e.double.credit_amount, hrev.1]
        rfl
    · rw [hnet, hone, postings_cons, balance_cons, hrev.1, hrefund]
      simp [postings]

/-- A withdrawal of 40 dollars, through a circuit breaker with the default parameters. -/
def withdrawalOf40 : WithdrawalRequest where
  accountId := ⟨1⟩
  amount := ⟨false, 40, 0⟩
  currency := "USD"
  destinationType := "bank_transfer"
  destinationDetails := .obj [("iban", .str "DE0012")]
  idempotencyKey := "withdrawal"
  actorUserId := some ⟨1000⟩
  circuitBreaker := some {}

/-- Process 2 has reserved the funds of the withdrawal, which gets the identifier `9`. -/
def reservedSchedule : Schedule :=
  seededSchedule ++ [.spawn (.request (.createWithdrawal withdrawalOf40))] ++ steps 2 16

/-- Process 2 has submitted the withdrawal and is about to call the rail. -/
def submittedSchedule : Schedule := reservedSchedule ++ steps 2 6

/-- A withdrawal that the rail has rejected is refunded once. -/
theorem no_double_refund_rejected :
    ∃ c, Reaches Sha256.hexdigest c ∧ ∃ w ∈ c.shared.db.withdrawals, w.status = .failed ∧
      RefundedOnce c.shared.db w := by
  obtain ⟨c, hc, w, hw, hfailed⟩ := reaches_of_played
    (P := fun c => ∃ w ∈ c.shared.db.withdrawals, w.status = .failed)
    (show (played anyStep (submittedSchedule ++ [.call 2 (.choose (.reject "INVALID_ACCOUNT"))] ++
      steps 2 15)).any _ = true by decide +kernel)
  exact ⟨c, hc, w, hw, hfailed, no_double_refund hc w hw⟩

end MiniWallet

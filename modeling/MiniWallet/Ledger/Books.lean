import MiniWallet.Ledger.Transactions

/-!
# The books

What a transaction does to each table, and the relation between the tables and a journal of double
entries that every transaction keeps.

* `Transaction.legs_perm`, `transfers_applyAll`, `deposits_applyAll`, `withdrawals_applyAll`: the
  tables after a transaction.
* `Books db js`: the ledger consists of the legs of the journal `js`, and the journal accounts for
  the rows of the domain tables.
* `Books.post`: posting a transaction keeps the books.
-/

namespace MiniWallet

open Numeric Bookkeeping

variable {α : Type}

/-! ## The tables after a transaction -/

namespace Transaction

/-- The transfers that a transaction inserts. -/
def transfers : Transaction → List (Transfer Decimal)
  | transferFailed t _ | transferred t _ _ => [t]
  | _ => []

/-- The deposits that a transaction inserts, as it leaves them. -/
def deposits : Transaction → List (Deposit Decimal)
  | depositRejected d set _ | deposited d _ set _ => [set.apply d]
  | _ => []

/-- The withdrawals that a transaction inserts. -/
def withdrawals : Transaction → List (Withdrawal Decimal)
  | reserved w _ _ => [w]
  | _ => []

/-- The withdrawal that a transaction updates, with the updates in order. -/
def updates : Transaction → Option (UUID × List WithdrawalSet)
  | submitted id set => some (id, [set])
  | completed id before set _ => some (id, before ++ [set])
  | compensated id before _ set _ => some (id, before ++ [set])
  | _ => none

end Transaction

/-- A withdrawal after several updates of the withdrawal with identifier `id`. -/
def Withdrawal.updated (id : UUID) (sets : List WithdrawalSet) (w : Withdrawal α) : Withdrawal α :=
  if w.id = id then sets.foldl (fun w s => s.apply w) w else w

namespace Transaction

/-- What a transaction does to a withdrawal. -/
def update (T : Transaction) (w : Withdrawal α) : Withdrawal α :=
  T.updates.elim w fun u => w.updated u.1 u.2

end Transaction

/-- Updates keep the identifier. -/
theorem foldl_apply_id (sets : List WithdrawalSet) (w : Withdrawal α) :
    (sets.foldl (fun w s => s.apply w) w).id = w.id := by
  induction sets generalizing w with
  | nil => rfl
  | cons s sets ih => exact ih (s.apply w)

/-- Updates keep what a withdrawal moves. -/
theorem foldl_apply_reservation (sets : List WithdrawalSet) (w : Withdrawal α) :
    (sets.foldl (fun w s => s.apply w) w).reservation = w.reservation := by
  induction sets generalizing w with
  | nil => rfl
  | cons s sets ih => exact ih (s.apply w)

/-- What the last of several updates has set. -/
theorem foldl_apply_concat (before : List WithdrawalSet) (set : WithdrawalSet) (w : Withdrawal α) :
    (before ++ [set]).foldl (fun w s => s.apply w) w =
      set.apply (before.foldl (fun w s => s.apply w) w) := by
  rw [List.foldl_append]
  rfl

namespace Withdrawal

variable (id : UUID) (sets : List WithdrawalSet) (w : Withdrawal α)

/-- Updates keep the identifier of a withdrawal. -/
@[simp]
theorem updated_id : (w.updated id sets).id = w.id := by
  unfold updated
  split
  · exact foldl_apply_id sets w
  · rfl

/-- Updates keep what a withdrawal reserves. -/
@[simp]
theorem updated_reservation : (w.updated id sets).reservation = w.reservation := by
  unfold updated
  split
  · exact foldl_apply_reservation sets w
  · rfl

end Withdrawal

namespace Transaction

/-- A transaction keeps the identifier of every withdrawal. -/
@[simp]
theorem update_id (T : Transaction) (w : Withdrawal α) : (T.update w).id = w.id := by
  unfold update
  cases T.updates <;> simp

/-- A transaction keeps what every withdrawal reserves. -/
@[simp]
theorem update_reservation (T : Transaction) (w : Withdrawal α) :
    (T.update w).reservation = w.reservation := by
  unfold update
  cases T.updates <;> simp

/-- A transaction without updates leaves every withdrawal as it is. -/
theorem update_of_updates_eq_none {T : Transaction} (h : T.updates = none) (w : Withdrawal α) :
    T.update w = w := by
  rw [update, h]
  rfl

/-- A transaction does not touch the withdrawals that it does not update. -/
theorem update_of_ne {T : Transaction} {w : Withdrawal α} (h : ∀ u ∈ T.updates, u.1 ≠ w.id) :
    T.update w = w := by
  unfold update
  cases hu : T.updates with
  | none => rfl
  | some u => exact if_neg fun heq => h u hu heq.symm

/-- The last update of a transaction decides the status of the withdrawal. -/
theorem last_update (T : Transaction) {id : UUID} (h : ∃ u ∈ T.updates, u.1 = id) :
    ∃ before set, T.updates = some (id, before ++ [set]) ∧
      ∀ w : Withdrawal α, w.id = id → (T.update w).status = set.status := by
  have hlast : ∀ before set, T.updates = some (id, before ++ [set]) →
      ∀ w : Withdrawal α, w.id = id → (T.update w).status = set.status := by
    intro before set hu w hid
    rw [update, hu, Option.elim_some, Withdrawal.updated, if_pos hid, foldl_apply_concat]
    rfl
  obtain ⟨⟨id', sets⟩, hu, rfl : id' = id⟩ := h
  cases T with
  | submitted id set =>
      cases hu
      exact ⟨[], set, rfl, hlast [] set rfl⟩
  | completed id before set event | compensated id before e set event =>
      cases hu
      exact ⟨before, set, rfl, hlast before set rfl⟩
  | _ => cases hu

/-- A transaction does not touch a withdrawal, or its last update decides the status. -/
theorem update_cases (T : Transaction) (w : Withdrawal α) :
    T.update w = w ∨ ∃ before set, T.updates = some (w.id, before ++ [set]) ∧
      (T.update w).status = set.status := by
  by_cases hid : ∀ u ∈ T.updates, u.1 ≠ w.id
  · exact .inl (update_of_ne hid)
  · push Not at hid
    obtain ⟨before, set, hu, hstatus⟩ := T.last_update (α := α) hid
    exact .inr ⟨before, set, hu, hstatus w rfl⟩

/-- The updates of a transaction determine the withdrawal and the last update. -/
theorem last_of_updates {T : Transaction} {id id' : UUID} {before : List WithdrawalSet}
    {set set' : WithdrawalSet} (h : T.updates = some (id, before ++ [set]))
    (before' : List WithdrawalSet) (h' : T.updates = some (id', before' ++ [set'])) :
    id' = id ∧ set' = set := by
  rw [h] at h'
  simp only [Option.some.injEq, Prod.mk.injEq, List.append_singleton_inj] at h'
  exact ⟨h'.1.symm, h'.2.2.symm⟩

/-- Updating a withdrawal and storing it commute. -/
theorem update_stored (T : Transaction) (w : Withdrawal Decimal) :
    T.update w.stored = (T.update w).stored := by
  have hfold : ∀ (sets : List WithdrawalSet) (w : Withdrawal Decimal),
      sets.foldl (fun w s => s.apply w) w.stored =
        (sets.foldl (fun w s => s.apply w) w).stored := by
    intro sets
    induction sets with
    | nil => exact fun _ => rfl
    | cons s sets ih => exact fun w => ih (s.apply w)
  unfold update
  cases T.updates with
  | none => rfl
  | some u =>
      by_cases hid : w.id = u.1
      · simp only [Option.elim_some, Withdrawal.updated]
        rw [if_pos hid, if_pos (show w.stored.id = u.1 from hid), hfold]
      · simp only [Option.elim_some, Withdrawal.updated]
        rw [if_neg hid, if_neg (show w.stored.id ≠ u.1 from hid)]

/-- The withdrawals that a session updates are those of its transaction. -/
theorem mem_changes {T : Transaction} {σ : Session} (h : σ.writes = T.writes) {id : UUID} :
    id ∈ σ.changes ↔ ∃ u ∈ T.updates, u.1 = id := by
  rw [Session.changes, h]
  cases T <;> simp [writes, updates, eq_comm]

end Transaction

/-- The reversal of a withdrawal is its reservation in the other direction, so what keeps one keeps
the other. -/
theorem Withdrawal.reversal_eq_of_reservation_eq {w w' : Withdrawal α}
    (h : w.reservation = w'.reservation) : w.reversal = w'.reversal := by
  simp only [Withdrawal.reservation, Movement.mk.injEq, Posting.mk.injEq, Option.some.injEq] at h
  simp [Withdrawal.reversal, h]

namespace Database

variable (db : Database) (T : Transaction)

/-- Updates of withdrawals, one after the other. -/
theorem withdrawals_sets (id : UUID) (sets : List WithdrawalSet) :
    (db.applyAll (sets.map (.setWithdrawal id))).withdrawals =
      db.withdrawals.map (Withdrawal.updated id sets) := by
  induction sets generalizing db with
  | nil => exact (List.map_id'' (fun w => by simp [Withdrawal.updated]) _).symm
  | cons s sets ih =>
      rw [List.map_cons, applyAll_cons, ih, withdrawals_setWithdrawal, List.map_map]
      refine List.map_congr_left fun w _ => ?_
      by_cases hw : w.id = id
      · simp [Withdrawal.updated, hw, WithdrawalSet.apply]
      · simp [Withdrawal.updated, hw]

/-- Updates of withdrawals leave the other tables alone. -/
theorem tables_sets (id : UUID) (sets : List WithdrawalSet) :
    (db.applyAll (sets.map (.setWithdrawal id))).transfers = db.transfers ∧
      (db.applyAll (sets.map (.setWithdrawal id))).deposits = db.deposits := by
  induction sets generalizing db with
  | nil => exact ⟨rfl, rfl⟩
  | cons s sets ih =>
      obtain ⟨ht, hd⟩ := ih ((Write.setWithdrawal id s).apply db)
      exact ⟨ht.trans (by simp), hd.trans (by simp)⟩

/-- The legs that a transaction adds to the ledger are those of its entries. -/
theorem legs_perm :
    (T.writes.flatMap Write.legs).Perm (T.entries.flatMap fun e => e.stored.legs) := by
  have hsets : ∀ id (sets : List WithdrawalSet),
      (sets.map (Write.setWithdrawal id)).flatMap Write.legs = [] := by
    intro id sets
    simp [List.flatMap_map, Write.legs]
  cases T with
  | deposited d e set event | reserved w e event => exact .swap ..
  | completed id before set event =>
      simp [Transaction.writes, Transaction.entries, hsets, Write.legs]
  | compensated id before e set event =>
      simp [Transaction.writes, Transaction.entries, hsets, Write.legs, Entry.legs, Entry.map]
  | _ => exact .refl _

/-- The ledger after a transaction. -/
theorem ledgerEntries_post :
    (db.applyAll T.writes).ledgerEntries.Perm
      ((T.entries.flatMap fun e => e.stored.legs) ++ db.ledgerEntries) := by
  rw [ledgerEntries_applyAll]
  exact ((List.reverse_perm _).trans (legs_perm T)).append_right _

/-- The table of transfers after a transaction. -/
theorem transfers_post :
    (db.applyAll T.writes).transfers = T.transfers.map Transfer.stored ++ db.transfers := by
  cases T with
  | completed id before set event | compensated id before e set event =>
      simp [Transaction.writes, Transaction.transfers, applyAll_append, Row.transfer?, tables_sets]
  | _ => simp [Transaction.writes, Transaction.transfers, Row.transfer?]

/-- The table of deposits after a transaction that inserts only deposits with a new identifier. -/
theorem deposits_post (h : ∀ d ∈ T.deposits, ∀ d' ∈ db.deposits, d'.id ≠ d.id) :
    (db.applyAll T.writes).deposits = T.deposits.map Deposit.stored ++ db.deposits := by
  have hother : ∀ d : Deposit Decimal, ∀ set : DepositSet,
      (∀ d' ∈ db.deposits, d'.id ≠ d.id) →
      (db.deposits.map fun d' => if d'.id = d.id then set.apply d' else d') = db.deposits := by
    intro d set hne
    rw [List.map_congr_left fun d' hd' => if_neg (hne d' hd'), List.map_id']
  cases T with
  | completed id before set event | compensated id before e set event =>
      simp [Transaction.writes, Transaction.deposits, applyAll_append, Row.deposit?, tables_sets]
  | depositRejected d set event | deposited d e set event =>
      have hd := hother d set (h (set.apply d) (List.mem_singleton_self _))
      have hnew : (set.apply d).stored = set.apply d.stored := rfl
      have hid : d.stored.id = d.id := rfl
      simp [Transaction.writes, Transaction.deposits, Row.deposit?, hd, hnew, hid]
  | _ => simp [Transaction.writes, Transaction.deposits, Row.deposit?]

/-- The table of withdrawals after a transaction. -/
theorem withdrawals_post :
    (db.applyAll T.writes).withdrawals =
      T.withdrawals.map Withdrawal.stored ++ db.withdrawals.map T.update := by
  -- most transactions set no withdrawal
  have hnone : T.updates = none → db.withdrawals.map T.update = db.withdrawals := by
    intro hnone
    exact List.map_id'' (fun w => Transaction.update_of_updates_eq_none hnone w) _
  cases T with
  | submitted id set =>
      exact db.withdrawals_sets id [set]
  | completed id before set event | compensated id before e set event =>
      -- the event that is written with the status leaves the withdrawals alone
      have hlast : ∀ db' : Database,
          ((Write.setWithdrawal id set).apply
            ((Write.insert (.outbox event)).apply db')).withdrawals =
            db'.withdrawals.map (Withdrawal.updated id [set]) := by
        intro db'
        simp [Withdrawal.updated, Row.withdrawal?]
      simp only [Transaction.writes, applyAll_append, applyAll_cons, applyAll_nil, hlast,
        withdrawals_insert, Row.withdrawal?, Option.map_none, Option.toList_none, List.nil_append,
        withdrawals_sets, List.map_map]
      refine List.map_congr_left fun w _ => ?_
      by_cases hw : w.id = id
      · simp [Transaction.update, Transaction.updates, Withdrawal.updated, hw, foldl_apply_id]
      · simp [Transaction.update, Transaction.updates, Withdrawal.updated, hw]
  | _ =>
      rw [hnone rfl]
      simp [Transaction.writes, Transaction.withdrawals, Row.withdrawal?]

/-- A withdrawal of the tables after a transaction is one that it inserts, or one that was there
before, with the updates of the transaction. -/
theorem mem_withdrawals_post {row : Withdrawal Ticks}
    (h : row ∈ (db.applyAll T.writes).withdrawals) :
    (∃ w ∈ T.withdrawals, row = w.stored) ∨ ∃ old ∈ db.withdrawals, row = T.update old := by
  rw [withdrawals_post, List.mem_append, List.mem_map, List.mem_map] at h
  rcases h with ⟨w, hw, rfl⟩ | ⟨old, hold, rfl⟩
  · exact .inl ⟨w, hw, rfl⟩
  · exact .inr ⟨old, hold, rfl⟩

end Database

/-! ## Identifiers -/

/-- The identifiers that the tables use as names: of movements, and of what was moved for. -/
def Database.names (db : Database) : List UUID :=
  db.ledgerEntries.map (·.transactionId) ++ (db.transfers.map (·.id) ++
    (db.deposits.map (·.id) ++ db.withdrawals.map (·.id)))

/-- The identifiers that a transaction introduces as names. -/
def Transaction.names (T : Transaction) : List UUID :=
  T.entries.map Entry.transactionId ++ (T.transfers.map (·.id) ++
    (T.deposits.map (·.id) ++ T.withdrawals.map (·.id)))

/-- The identifiers of the deposits after a transaction. -/
theorem Database.deposits_ids_post (db : Database) (T : Transaction) :
    (db.applyAll T.writes).deposits.map (·.id) =
      T.deposits.map (·.id) ++ db.deposits.map (·.id) := by
  have hset : ∀ (id : UUID) (set : DepositSet) (ds : List (Deposit Ticks)),
      (ds.map fun d => if d.id = id then set.apply d else d).map (·.id) = ds.map (·.id) := by
    intro id set ds
    rw [List.map_map]
    refine List.map_congr_left fun d _ => ?_
    by_cases hd : d.id = id <;> simp [hd, DepositSet.apply]
  cases T with
  | completed id before set event | compensated id before e set event =>
      simp [Transaction.writes, Transaction.deposits, applyAll_append, Row.deposit?, tables_sets]
  | depositRejected d set event | deposited d e set event =>
      simp only [Transaction.writes, Transaction.deposits, applyAll_cons, applyAll_nil,
        deposits_insert, deposits_setDeposit, Row.deposit?, Option.map_none, Option.toList_none,
        List.nil_append, hset]
      rfl
  | _ => simp [Transaction.writes, Transaction.deposits, Row.deposit?]

/-- A name that is in use after a transaction was in use before, or the transaction introduces
it. -/
theorem Database.mem_names_post {db : Database} {T : Transaction} {id : UUID}
    (h : id ∈ (db.applyAll T.writes).names) : id ∈ T.names ∨ id ∈ db.names := by
  -- the legs carry the identifier of their transaction
  have hledger : id ∈ (db.applyAll T.writes).ledgerEntries.map (·.transactionId) →
      id ∈ T.entries.map Entry.transactionId ∨ id ∈ db.ledgerEntries.map (·.transactionId) := by
    intro h
    rw [((db.ledgerEntries_post T).map _).mem_iff, List.map_append, List.mem_append] at h
    refine h.imp_left fun h => ?_
    obtain ⟨l, hl, rfl⟩ := List.mem_map.mp h
    obtain ⟨e, he, hle⟩ := List.mem_flatMap.mp hl
    rw [Entry.transactionId_of_mem hle]
    exact List.mem_map_of_mem he
  have htransfers : (T.transfers.map Transfer.stored).map (·.id) = T.transfers.map (·.id) := by
    rw [List.map_map]
    rfl
  have hreserved : (T.withdrawals.map Withdrawal.stored).map (·.id) = T.withdrawals.map (·.id) := by
    rw [List.map_map]
    rfl
  have hwithdrawals : (db.withdrawals.map T.update).map (·.id) = db.withdrawals.map (·.id) := by
    simp [List.map_map]
  simp only [names, Transaction.names, db.transfers_post T, db.deposits_ids_post T,
    db.withdrawals_post T, List.map_append, htransfers, hreserved, hwithdrawals,
    List.mem_append] at h ⊢
  -- each table in turn, first what is new in it
  rcases h with h | (h | h) | (h | h) | h | h
  · exact (hledger h).imp .inl .inl
  · exact .inl (.inr (.inl h))
  · exact .inr (.inr (.inl h))
  · exact .inl (.inr (.inr (.inl h)))
  · exact .inr (.inr (.inr (.inl h)))
  · exact .inl (.inr (.inr (.inr h)))
  · exact .inr (.inr (.inr (.inr h)))

/-! ## The creator's object after a transaction -/

/-- Updates of withdrawals, one after the other, on the object that the creator holds. -/
theorem ownedAfter_sets (id : UUID) (sets : List WithdrawalSet) (o : Option (Withdrawal Decimal)) :
    (sets.map (.setWithdrawal id)).foldl Session.ownedAfter o =
      o.map (Withdrawal.updated id sets) := by
  induction sets generalizing o with
  | nil => cases o <;> simp [Withdrawal.updated]
  | cons s sets ih =>
      rw [List.map_cons, List.foldl_cons, ih]
      cases o with
      | none => rfl
      | some w =>
          by_cases hw : w.id = id
          · simp [Session.ownedAfter, Withdrawal.updated, hw, WithdrawalSet.apply]
          · simp [Session.ownedAfter, Withdrawal.updated, hw]

/-- The object that the creator of a withdrawal holds after a commit. -/
theorem Session.commit_owned {σ : Session} {T : Transaction} (h : σ.writes = T.writes) :
    σ.commit.owned = T.withdrawals.head?.or (σ.owned.map T.update) := by
  have hnone : T.updates = none → σ.owned.map T.update = σ.owned := by
    intro hnone
    rw [show (T.update : Withdrawal Decimal → Withdrawal Decimal) = id from
      funext fun w => Transaction.update_of_updates_eq_none hnone w, Option.map_id, id]
  change σ.writes.foldl ownedAfter σ.owned = _
  rw [h]
  cases T with
  | submitted id set => exact ownedAfter_sets id [set] σ.owned
  | completed id before set event | compensated id before e set event =>
      simp only [Transaction.writes, List.foldl_append, ownedAfter_sets, List.foldl_cons,
        List.foldl_nil, ownedAfter]
      cases σ.owned with
      | none => rfl
      -- the object is the withdrawal of the transaction, or another one
      | some w =>
          by_cases hw : w.id = id
          · simp [Transaction.update, Transaction.updates, Transaction.withdrawals,
              Withdrawal.updated, hw, foldl_apply_id]
          · simp [Transaction.update, Transaction.updates, Transaction.withdrawals,
              Withdrawal.updated, hw]
  | _ => first | rfl | exact (hnone rfl).symm

/-! ## Journals -/

/-- The movements of one kind in a journal. -/
def movements (js : List (Entry α)) (kind : EntryType) : List (Movement α) :=
  (js.map (·.movement)).filter (·.kind = kind)

/-- Without entries there are no movements. -/
@[simp]
theorem movements_nil (kind : EntryType) : movements ([] : List (Entry α)) kind = [] := rfl

/-- The movements of a kind are collected in the order of the entries. -/
theorem movements_append (js js' : List (Entry α)) (kind : EntryType) :
    movements (js ++ js') kind = movements js kind ++ movements js' kind := by
  simp [movements]

/-- It does not matter whether entries or their movements are stored. -/
theorem movements_stored (js : List (Entry Decimal)) (kind : EntryType) :
    movements (js.map Entry.stored) kind = (movements js kind).map Movement.stored := by
  simp only [movements, List.map_map, List.filter_map]
  rfl

/-- The journal `js` accounts for the tables. -/
structure Books (db : Database) (js : List (Entry Ticks)) : Prop where
  /-- The ledger consists of the legs of the entries. -/
  ledger : db.ledgerEntries.Perm (js.flatMap Entry.legs)
  /-- Every amount is positive. -/
  positive : ∀ e ∈ js, 0 < e.movement.amount
  /-- The entries have different transaction identifiers. -/
  transactionIds : (js.map Entry.transactionId).Nodup
  /-- Seeds come out of the system account and carry their idempotency key. -/
  seeds : ∀ e ∈ js, e.movement.kind = .seed → e.movement.source = systemAccountId ∧
    e.movement.reference = none ∧ e.debit.idempotencyKey = none ∧ e.credit.idempotencyKey.isSome
  /-- There is one entry for each completed transfer. -/
  transfers : (movements js .transfer).Perm
    ((db.transfers.filter (·.status = .completed)).map Transfer.movement)
  /-- There is one entry for each completed deposit. -/
  deposits : (movements js .deposit).Perm
    ((db.deposits.filter (·.status = .completed)).map Deposit.movement)
  /-- There is one reservation for each withdrawal. -/
  reservations : (movements js .withdrawal).Perm (db.withdrawals.map Withdrawal.reservation)
  /-- A reversal belongs to a withdrawal. -/
  reversals : ∀ e ∈ js, e.movement.kind = .withdrawalReversal → ∃ w ∈ db.withdrawals, e.Reverses w
  /-- A failed withdrawal has been refunded. -/
  refunds : ∀ w ∈ db.withdrawals, w.status = .failed → ∃ e ∈ js, e.Reverses w
  /-- Withdrawals are made from the accounts of users. -/
  accounts : ∀ w ∈ db.withdrawals, w.accountId ≠ systemAccountId
  /-- A withdrawal does not share its identifier with a transfer or a deposit. -/
  distinct : ∀ w ∈ db.withdrawals,
    (∀ t ∈ db.transfers, t.id ≠ w.id) ∧ ∀ d ∈ db.deposits, d.id ≠ w.id

/-- The books of the migrated tables are empty. -/
theorem books_migrated (t₀ : Time) : Books (.migrated t₀) [] where
  ledger := .refl _
  positive := fun _ h => nomatch h
  transactionIds := .nil
  seeds := fun _ h => nomatch h
  transfers := .refl _
  deposits := .refl _
  reservations := .refl _
  reversals := fun _ h => nomatch h
  refunds := fun _ h => nomatch h
  accounts := fun _ h => nomatch h
  distinct := fun _ h => nomatch h

/-! ## Posting a transaction -/

section Justified

variable {σ : Session} {T : Transaction}

/-- A transaction has at most one entry. -/
theorem Transaction.entries_length (T : Transaction) : T.entries.length ≤ 1 := by
  cases T <;> simp [entries]

/-- The transactions that move money for a transfer are those that record a completed one. -/
theorem Justified.transfers (h : Justified σ T) :
    movements T.entries .transfer =
      (T.transfers.filter (·.status = .completed)).map Transfer.movement := by
  cases h <;>
    simp_all [Transaction.entries, Transaction.transfers, movements, Transfer.movement,
      Deposit.movement, Withdrawal.reservation, Withdrawal.reversal, Entry.Reverses]

/-- The transactions that move money for a deposit are those that record a completed one. -/
theorem Justified.deposits (h : Justified σ T) :
    movements T.entries .deposit =
      (T.deposits.filter (·.status = .completed)).map Deposit.movement := by
  cases h <;>
    simp_all [Transaction.entries, Transaction.deposits, movements, Transfer.movement,
      Deposit.movement, Withdrawal.reservation, Withdrawal.reversal, Entry.Reverses,
      DepositSet.apply]

/-- The transactions that reserve funds are those that record a withdrawal. -/
theorem Justified.reservations (h : Justified σ T) :
    movements T.entries .withdrawal = T.withdrawals.map Withdrawal.reservation := by
  cases h <;>
    simp_all [Transaction.entries, Transaction.withdrawals, movements, Transfer.movement,
      Deposit.movement, Withdrawal.reservation, Withdrawal.reversal, Entry.Reverses]

/-- A seed comes out of the system account and carries an idempotency key. -/
theorem Justified.seeds (h : Justified σ T) :
    ∀ e ∈ T.entries, e.movement.kind = .seed → e.movement.source = systemAccountId ∧
      e.movement.reference = none ∧ e.debit.idempotencyKey = none ∧
      e.credit.idempotencyKey.isSome := by
  cases h <;>
    simp_all [Transaction.entries, Transfer.movement, Deposit.movement, Withdrawal.reservation,
      Withdrawal.reversal, Entry.Reverses]

/-- The names that a transaction introduces were drawn for it. -/
theorem Justified.drawn (h : Justified σ T) : ∀ id ∈ T.names, id ∈ σ.drawn := by
  cases h <;>
    simp_all [Transaction.names, Transaction.entries, Transaction.transfers, Transaction.deposits,
      Transaction.withdrawals, DepositSet.apply]

/-- A withdrawal starts out as pending. -/
theorem Justified.status_of_mem (h : Justified σ T) {w : Withdrawal Decimal}
    (hw : w ∈ T.withdrawals) : w.status = .pending := by
  cases h with
  | reserved _ _ hstatus =>
      obtain rfl := List.mem_singleton.mp hw
      exact hstatus
  | _ => cases hw

/-- A withdrawal is made from the account of a user. -/
theorem Justified.accounts (h : Justified σ T) :
    ∀ w ∈ T.withdrawals, w.accountId ≠ systemAccountId := by
  intro w hw
  cases h with
  | reserved _ _ _ _ haccount =>
      obtain rfl := List.mem_singleton.mp hw
      exact haccount
  | _ => cases hw

/-- A withdrawal that fails is refunded in the same transaction. -/
theorem Justified.fails (h : Justified σ T) {row : Withdrawal Ticks}
    (hrow : (T.update row).status = .failed) :
    row.status = .failed ∨ ∃ e ∈ T.entries, e.movement.kind = .withdrawalReversal ∧
      e.movement.reference = some row.id := by
  rcases T.update_cases row with hsame | ⟨before, set, hu, hstatus⟩
  · rw [hsame] at hrow
    -- the row was not touched: it had failed before
    exact .inl hrow
  · rw [hrow] at hstatus
    cases h with
    | submitted _ _ _ _ hsubmits =>
        -- of the transactions that update a withdrawal, only a compensation sets `failed`
        obtain ⟨-, rfl⟩ := Transaction.last_of_updates hu [] rfl
        rw [hsubmits.1] at hstatus
        cases hstatus
    | completed _ _ _ _ hcompleted | recoveredCompleted _ _ hcompleted _ =>
        obtain ⟨-, rfl⟩ := Transaction.last_of_updates hu _ rfl
        rw [hcompleted] at hstatus
        cases hstatus
    | compensated _ _ _ _ _ hrev _ | recoveredCompensated _ _ _ hrev _ _ =>
        refine .inr ⟨_, List.mem_singleton_self _, ?_⟩
        rw [hrev.1, ← (Transaction.last_of_updates hu _ rfl).1]
        exact ⟨rfl, rfl⟩
    | _ => cases hu

end Justified

/-- What refunds a withdrawal refunds every row that moves the same. -/
theorem Entry.Reverses.congr {e : Entry α} {w w' : Withdrawal α} (h : e.Reverses w)
    (hw : w'.reservation = w.reservation) : e.Reverses w' := by
  have hid : w'.id = w.id := Option.some.inj (congrArg Movement.reference hw)
  refine ⟨h.1.trans (Withdrawal.reversal_eq_of_reservation_eq hw).symm, h.2.1, ?_⟩
  rw [hid]
  exact h.2.2

/-- What makes a transaction fit for the books: it is justified, its amounts and identifiers are
sound, and what it refunds exists. -/
structure Postable (db : Database) (σ : Session) (T : Transaction) : Prop where
  justified : Justified σ T
  positive : ∀ e ∈ T.entries, 0 < e.stored.movement.amount
  fresh : ∀ id ∈ T.names, id ∉ db.names
  deposits : ∀ d ∈ T.deposits, ∀ d' ∈ db.deposits, d'.id ≠ d.id
  unique : ∀ w ∈ db.withdrawals, ∀ w' ∈ db.withdrawals, w.id = w'.id → w = w'
  refunds : ∀ e ∈ T.entries, e.movement.kind = .withdrawalReversal →
    ∃ w ∈ db.withdrawals, e.stored.Reverses w

namespace Books

variable {db : Database} {js : List (Entry Ticks)} {σ : Session} {T : Transaction}

/-- The legs of an entry are in the ledger. -/
theorem mem_ledger (h : Books db js) {e : Entry Ticks} (he : e ∈ js) {l : LedgerEntry Ticks}
    (hl : l ∈ e.legs) : l ∈ db.ledgerEntries :=
  h.ledger.mem_iff.mpr (List.mem_flatMap.mpr ⟨e, he, hl⟩)

/-- Posting a transaction keeps the books. -/
theorem post (h : Books db js) (hT : Postable db σ T) :
    Books (db.applyAll T.writes) (T.entries.map Entry.stored ++ js) where
  ledger := by
    rw [List.flatMap_append, List.flatMap_map]
    exact (db.ledgerEntries_post T).trans (h.ledger.append_left _)
  positive := by
    intro e he
    rcases List.mem_append.mp he with he | he
    · obtain ⟨e', he', rfl⟩ := List.mem_map.mp he
      exact hT.positive e' he'
    · exact h.positive e he
  transactionIds := by
    rw [List.map_append, List.map_map]
    refine List.Nodup.append ?_ h.transactionIds ?_
    · have hlen := T.entries_length
      match hT : T.entries with
      | [] => exact .nil
      | [e] => exact List.nodup_singleton _
      | _ :: _ :: _ => simp [hT] at hlen
    · intro id hid hid'
      obtain ⟨e, he, rfl⟩ := List.mem_map.mp hid
      obtain ⟨e', he', heq⟩ := List.mem_map.mp hid'
      refine hT.fresh e.transactionId (List.mem_append_left _ (List.mem_map_of_mem he)) ?_
      refine List.mem_append_left _ (List.mem_map.mpr ⟨e'.debit, ?_, heq⟩)
      exact h.mem_ledger he' (List.mem_cons_self ..)
  seeds := by
    intro e he
    rcases List.mem_append.mp he with he | he
    · obtain ⟨e', he', rfl⟩ := List.mem_map.mp he
      exact hT.justified.seeds e' he'
    · exact h.seeds e he
  transfers := by
    rw [movements_append, movements_stored, hT.justified.transfers, db.transfers_post T,
      List.filter_append, List.map_append, List.filter_map, List.map_map, List.map_map]
    exact h.transfers.append_left _
  deposits := by
    rw [movements_append, movements_stored, hT.justified.deposits, db.deposits_post T hT.deposits,
      List.filter_append, List.map_append, List.filter_map, List.map_map, List.map_map]
    exact h.deposits.append_left _
  reservations := by
    have hold : (db.withdrawals.map T.update).map Withdrawal.reservation =
        db.withdrawals.map Withdrawal.reservation := by
      simp [List.map_map]
    rw [movements_append, movements_stored, hT.justified.reservations, db.withdrawals_post T,
      List.map_append, hold, List.map_map, List.map_map]
    exact h.reservations.append_left _
  reversals := by
    intro e he hkind
    have hold : ∃ w ∈ db.withdrawals, e.Reverses w := by
      rcases List.mem_append.mp he with he | he
      · obtain ⟨e', he', rfl⟩ := List.mem_map.mp he
        exact hT.refunds e' he' hkind
      · exact h.reversals e he hkind
    obtain ⟨w, hw, hrev⟩ := hold
    refine ⟨T.update w, ?_, hrev.congr (T.update_reservation w)⟩
    rw [db.withdrawals_post T]
    exact List.mem_append_right _ (List.mem_map_of_mem hw)
  refunds := by
    intro row hrow hfailed
    rcases db.mem_withdrawals_post T hrow with ⟨w, hw, rfl⟩ | ⟨w, hw, rfl⟩
    · have hpending : w.stored.status = .pending := hT.justified.status_of_mem hw
      rw [hfailed] at hpending
      cases hpending
    · rcases hT.justified.fails hfailed with hfailed | ⟨e, he, hkind, href⟩
      · obtain ⟨e, he, hrev⟩ := h.refunds w hw hfailed
        exact ⟨e, List.mem_append_right _ he, hrev.congr (T.update_reservation w)⟩
      · obtain ⟨w', hw', hrev⟩ := hT.refunds e he hkind
        have hid : w'.id = w.id := by
          have href' : e.stored.movement.reference = some w'.id := by rw [hrev.1]; rfl
          exact Option.some.inj (href'.symm.trans href)
        obtain rfl := hT.unique w' hw' w hw hid
        exact ⟨e.stored, List.mem_append_left _ (List.mem_map_of_mem he),
          hrev.congr (T.update_reservation w')⟩
  accounts := by
    intro row hrow
    rcases db.mem_withdrawals_post T hrow with ⟨w, hw, rfl⟩ | ⟨w, hw, rfl⟩
    · exact hT.justified.accounts w hw
    · have hsource := congrArg (·.source) (T.update_reservation w)
      exact fun heq => h.accounts w hw (hsource.symm.trans heq)
  distinct := by
    intro row hrow
    rw [db.transfers_post T, db.deposits_post T hT.deposits]
    -- a name that the transaction introduces is not in use, and it introduces only one row
    rcases db.mem_withdrawals_post T hrow with ⟨w, hw, rfl⟩ | ⟨w, hw, rfl⟩
    · have hfresh : w.id ∉ db.names := hT.fresh w.id (by simp [Transaction.names]; grind)
      have hnone : T.transfers = [] ∧ T.deposits = [] := by
        cases T <;> first | exact ⟨rfl, rfl⟩ | cases hw
      rw [hnone.1, hnone.2]
      refine ⟨fun t ht hid => hfresh ?_, fun d hd hid => hfresh ?_⟩
      · exact List.mem_append_right _ (List.mem_append_left _ (List.mem_map.mpr ⟨t, ht, hid⟩))
      · exact List.mem_append_right _ (List.mem_append_right _
          (List.mem_append_left _ (List.mem_map.mpr ⟨d, hd, hid⟩)))
    · rw [T.update_id]
      have hused : w.id ∈ db.names := by simp [Database.names]; grind
      refine ⟨fun t ht => ?_, fun d hd => ?_⟩
      · rcases List.mem_append.mp ht with ht | ht
        · obtain ⟨t', ht', rfl⟩ := List.mem_map.mp ht
          have hfresh : t'.id ∉ db.names := hT.fresh t'.id (by simp [Transaction.names]; grind)
          exact fun hid => hfresh (hid ▸ hused)
        · exact (h.distinct w hw).1 t ht
      · rcases List.mem_append.mp hd with hd | hd
        · obtain ⟨d', hd', rfl⟩ := List.mem_map.mp hd
          have hfresh : d'.id ∉ db.names := hT.fresh d'.id (by simp [Transaction.names]; grind)
          exact fun hid => hfresh (hid ▸ hused)
        · exact (h.distinct w hw).2 d hd

end Books

end MiniWallet

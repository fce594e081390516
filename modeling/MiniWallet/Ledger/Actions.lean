import MiniWallet.Bookkeeping.Bank
import MiniWallet.Ledger.Narration

/-!
# The wallet as a bank

The abstract bank that the tables stand for, and the action of the bank that a transaction stands
for. The identifiers of requests are the keys of the bank, and withdrawals are its payouts.

* `Database.bank`: the bank of the tables.
* `Transaction.action`: the action of a transaction, if it is one.
* `Request.Asks`: the actions that a request asks for.
* `opened_post`, `owned_post`, `used_post`, `held_post`: the bank of the tables after a transaction.
* `Justified.opens`, `Justified.owners`, `Justified.key`, `Justified.posting`: what of it is due to
  the action of the transaction.
-/

namespace MiniWallet

open Numeric Bookkeeping

/-- The bank of the wallet. -/
abbrev WalletBank := Bank UUID UUID UniqueKey UUID Ticks

/-- An action of the bank of the wallet. -/
abbrev BankAction := Bank.Action UUID UUID UniqueKey UUID Ticks

/-- The key identifies a request: its caller has chosen it, or it is the one of a refund. -/
def UniqueKey.OfRequest : UniqueKey → Prop
  | ledgerIdempotencyKey _ | transferIdempotencyKey _ | withdrawalIdempotencyKey _
  | depositExternalReference _ => True
  | pkey _ _ | accountUser _ | systemAccount => False

namespace Database

variable (db : Database)

/-- The account of a user. -/
def accountByUser (userId : UUID) : Option Account :=
  db.accounts.find? (·.userId = some userId)

/-- The funds of a withdrawal have been given back. -/
def refunded (id : UUID) : Bool :=
  db.ledgerEntries.any fun l => l.entryType = .withdrawalReversal ∧ l.referenceId = some id

/-- The bank that the tables stand for. -/
def bank : WalletBank where
  opened := {id | (db.accountById id).isSome}
  owned := fun userId => (db.accountByUser userId).map (·.id)
  balance := db.getBalance
  used := {key | key.OfRequest ∧ key ∈ db.keys}
  held := fun id => (db.withdrawalById id).map fun w => ⟨w.accountId, w.amount, db.refunded id⟩

end Database

namespace Transaction

/-- The transaction gives the funds of a withdrawal back. -/
def refunds (T : Transaction) (id : UUID) : Bool :=
  T.entries.any fun e => e.movement.kind = .withdrawalReversal ∧ e.movement.reference = some id

/-- The action of the bank that a transaction stands for. Progress of a withdrawal that moves no
money is none. -/
def action : Transaction → Option BankAction
  | empty | submitted _ _ | completed _ _ _ _ => none
  | opened a _ => a.userId.map fun userId => .openAccount userId a.id
  -- a seed is known by the key on its credit leg
  | seeded e _ => e.credit.idempotencyKey.map fun key =>
      .issue (.ledgerIdempotencyKey key) e.stored.movement.target e.stored.movement.amount
  | transferFailed t _ => some (.decline (.transferIdempotencyKey t.idempotencyKey))
  | transferred t _ _ =>
      some (.move (.transferIdempotencyKey t.idempotencyKey) t.fromAccountId t.toAccountId
        t.stored.amount)
  | depositRejected d _ _ => some (.decline (.depositExternalReference d.externalReference))
  | deposited d _ _ _ =>
      some (.issue (.depositExternalReference d.externalReference) d.accountId d.stored.amount)
  | reserved w _ _ =>
      some (.reserve (.withdrawalIdempotencyKey w.idempotencyKey) w.id w.accountId w.stored.amount)
  | compensated id _ e _ _ =>
      some (.refund (.ledgerIdempotencyKey (reversalKey id)) id e.stored.movement.target
        e.stored.movement.amount)

end Transaction

/-- The actions that a request asks for. A transfer or a deposit may be turned down instead, and the
funds of a withdrawal may be given back. -/
def Request.Asks : Request → BankAction → Prop
  | openAccount userId, .openAccount owner _ => owner = userId
  | seed q, .issue key target amount =>
      key = .ledgerIdempotencyKey q.idempotencyKey ∧ target = q.accountId ∧
        amount = Ticks.ofDecimal q.amount
  | transfer q, .decline key => key = .transferIdempotencyKey q.idempotencyKey
  | transfer q, .move key source target amount =>
      key = .transferIdempotencyKey q.idempotencyKey ∧ source = q.fromAccountId ∧
        target = q.toAccountId ∧ amount = Ticks.ofDecimal q.amount
  | simulateDeposit q, .decline key => key = .depositExternalReference q.externalReference
  | simulateDeposit q, .issue key target amount =>
      key = .depositExternalReference q.externalReference ∧ target = q.accountId ∧
        amount = Ticks.ofDecimal q.amount
  | createWithdrawal q, .reserve key _ source amount =>
      key = .withdrawalIdempotencyKey q.idempotencyKey ∧ source = q.accountId ∧
        amount = Ticks.ofDecimal q.amount
  | createWithdrawal q, .refund key claim target amount =>
      key = .ledgerIdempotencyKey (reversalKey claim) ∧ target = q.accountId ∧
        amount = Ticks.ofDecimal q.amount
  | recoverStuckWithdrawals _, .refund key claim _ _ =>
      key = .ledgerIdempotencyKey (reversalKey claim)
  | _, _ => False

/-! ## The bank after a transaction -/

namespace Database

variable (db : Database) (T : Transaction)

/-- The accounts that exist after a transaction. -/
theorem opened_post :
    (db.applyAll T.writes).bank.opened = {id | ∃ a ∈ T.accounts, a.id = id} ∪ db.bank.opened := by
  ext id
  simp only [bank, Set.mem_union, Set.mem_ofPred_eq, accountById_isSome, accounts_post,
    List.mem_append, or_and_right, exists_or]

/-- The account of a user after a transaction. -/
theorem owned_post (userId : UUID) :
    (db.applyAll T.writes).bank.owned userId =
      ((T.accounts.find? (·.userId = some userId)).map (·.id)).or (db.bank.owned userId) := by
  simp only [bank, accountByUser, accounts_post, List.find?_append, Option.map_or]

/-- The keys that are used after a transaction. -/
theorem used_post :
    (db.applyAll T.writes).bank.used =
      {key | key.OfRequest ∧ key ∈ T.writes.flatMap Write.keys} ∪ db.bank.used := by
  ext key
  simp only [bank, Set.mem_union, Set.mem_ofPred_eq, (db.keys_applyAll T.writes).mem_iff,
    List.mem_append, and_or_left]

/-- The refunds after a transaction. -/
theorem refunded_post (id : UUID) :
    (db.applyAll T.writes).refunded id = (T.refunds id || db.refunded id) := by
  have hlegs : ∀ e : Entry Decimal, (e.stored.legs.any fun l =>
      l.entryType = .withdrawalReversal ∧ l.referenceId = some id) =
        decide (e.movement.kind = .withdrawalReversal ∧ e.movement.reference = some id) := by
    intro e
    have h := e.double
    simp [Entry.legs, Entry.map, LedgerEntry.map, h.debit_kind, h.credit_kind, h.debit_reference,
      h.credit_reference]
  rw [refunded, (db.ledgerEntries_post T).any_eq, List.any_append, List.any_flatMap]
  simp only [hlegs]
  rfl

/-- The payouts after a transaction. -/
theorem held_post (id : UUID) :
    (db.applyAll T.writes).bank.held id =
      (((T.withdrawals.find? (·.id = id)).map Withdrawal.stored).or
        (db.withdrawalById id)).map fun w =>
          ⟨w.accountId, w.amount, T.refunds id || db.refunded id⟩ := by
  have hupdate : (db.withdrawals.map T.update).find? (·.id = id) =
      (db.withdrawalById id).map T.update := by
    rw [List.find?_map, withdrawalById]
    refine congrArg (Option.map T.update) (congrArg (List.find? · db.withdrawals) ?_)
    ext w
    simp
  have hstored : (T.withdrawals.map Withdrawal.stored).find? (·.id = id) =
      (T.withdrawals.find? (·.id = id)).map Withdrawal.stored := by
    rw [List.find?_map]
    rfl
  simp only [bank, withdrawalById, withdrawals_post, List.find?_append, hstored, refunded_post]
  change (Option.or _ ((db.withdrawals.map T.update).find? _)).map _ = _
  rw [hupdate]
  cases (T.withdrawals.find? (·.id = id)).map Withdrawal.stored with
  | some w => rfl
  | none =>
      -- an update keeps the account and the amount
      simp only [Option.none_or, Option.map_map, withdrawalById]
      refine congrArg (Option.map · _) (funext fun w => ?_)
      have hres := T.update_reservation w
      have haccount : (T.update w).accountId = w.accountId := congrArg (·.source) hres
      have hamount : (T.update w).amount = w.amount := congrArg (·.amount) hres
      simp [haccount, hamount]

end Database

section Justified

variable {σ : Session} {T : Transaction}

/-- The accounts that a transaction opens are those that its action opens. -/
theorem Justified.opens (h : Justified σ T) (b : WalletBank) :
    {id | ∃ a ∈ T.accounts, a.id = id} ∪ b.opened = (b.after systemAccountId T.action).opened := by
  ext id
  cases h with
  | opened _ huser =>
      obtain ⟨userId, huser⟩ := Option.isSome_iff_exists.mp huser
      simp [Transaction.accounts, Transaction.action, huser, Bank.after, Bank.perform, eq_comm]
  | seeded _ _ _ _ _ hcredit =>
      obtain ⟨key, hkey⟩ := Option.isSome_iff_exists.mp hcredit
      simp [Transaction.accounts, Transaction.action, hkey, Bank.after, Bank.perform]
  | _ => simp [Transaction.accounts, Transaction.action, Bank.after, Bank.perform]

/-- The users whose accounts a transaction opens are those of its action. -/
theorem Justified.owners (h : Justified σ T) (b : WalletBank) (userId : UUID) :
    ((T.accounts.find? (·.userId = some userId)).map (·.id)).or (b.owned userId) =
      (b.after systemAccountId T.action).owned userId := by
  cases h with
  | @opened a event _ huser =>
      obtain ⟨owner, huser⟩ := Option.isSome_iff_exists.mp huser
      by_cases howner : userId = owner
      · simp [Transaction.accounts, Transaction.action, huser, Bank.after, Bank.perform, howner]
      · simp [Transaction.accounts, Transaction.action, huser, Bank.after, Bank.perform, howner,
          Ne.symm howner]
  | seeded _ _ _ _ _ hcredit =>
      obtain ⟨key, hkey⟩ := Option.isSome_iff_exists.mp hcredit
      simp [Transaction.accounts, Transaction.action, hkey, Bank.after, Bank.perform]
  | _ => simp [Transaction.accounts, Transaction.action, Bank.after, Bank.perform]

/-- The keys of requests that a transaction takes are those of its action. -/
theorem Justified.key (h : Justified σ T) {key : UniqueKey} :
    key.OfRequest ∧ key ∈ T.writes.flatMap Write.keys ↔
      T.action.bind Bank.Action.key? = some key := by
  have hsets : ∀ id (sets : List WithdrawalSet),
      (sets.map (Write.setWithdrawal id)).flatMap Write.keys = [] := by
    intro id sets
    simp [List.flatMap_map, Write.keys]
  cases h with
  | empty | submitted => simp [Transaction.writes, Transaction.action, Write.keys]
  | @opened a event _ huser =>
      obtain ⟨user, huser⟩ := Option.isSome_iff_exists.mp huser
      simp only [Transaction.writes, Transaction.action, huser]
      cases key <;> simp [UniqueKey.OfRequest, Write.keys, Row.keys, Bank.Action.key?, huser]
  | seeded _ _ _ _ hdebit hcredit =>
      obtain ⟨k, hk⟩ := Option.isSome_iff_exists.mp hcredit
      simp only [Transaction.writes, Transaction.action, hk]
      cases key <;> simp [UniqueKey.OfRequest, Write.keys, Row.keys, Bank.Action.key?, hdebit, hk,
        eq_comm]
  | transferFailed | depositRejected =>
      simp only [Transaction.writes, Transaction.action]
      cases key <;> simp [UniqueKey.OfRequest, Write.keys, Row.keys, Bank.Action.key?, eq_comm]
  | transferred _ _ _ _ hkeyless | deposited _ _ _ _ hkeyless
  | reserved _ _ _ _ _ _ hkeyless =>
      -- the legs carry no key of their own
      simp only [Transaction.writes, Transaction.action]
      cases key <;> simp [UniqueKey.OfRequest, Write.keys, Row.keys, Bank.Action.key?, hkeyless.1,
        hkeyless.2, eq_comm]
  | completed | recoveredCompleted =>
      simp only [Transaction.writes, Transaction.action, List.flatMap_append, hsets]
      cases key <;> simp [UniqueKey.OfRequest, Write.keys, Row.keys]
  | compensated _ _ _ _ _ hrev | recoveredCompensated _ _ _ hrev =>
      simp only [Transaction.writes, Transaction.action, List.flatMap_append, hsets]
      cases key <;> simp [UniqueKey.OfRequest, Write.keys, Row.keys, Bank.Action.key?, hrev.2.1,
        hrev.2.2, eq_comm, Withdrawal.map]

/-- The postings of a transaction are those of its action. -/
theorem Justified.posting (h : Justified σ T) :
    postings (T.entries.map Entry.stored) =
      (T.action.bind (Bank.Action.posting? systemAccountId)).toList := by
  cases h with
  -- a seed is issued by the system account, and its key is the one of its credit leg
  | seeded _ _ _ hsource _ hcredit =>
      obtain ⟨k, hk⟩ := Option.isSome_iff_exists.mp hcredit
      simp [Transaction.entries, Transaction.action, Bank.Action.posting?, postings, hk, Entry.map,
        Movement.map, ← hsource]
  | opened _ huser =>
      obtain ⟨user, huser⟩ := Option.isSome_iff_exists.mp huser
      simp [Transaction.entries, Transaction.action, Bank.Action.posting?, postings, huser]
  | transferred _ _ _ hmove | deposited _ _ _ hmove | reserved _ _ _ _ _ hmove =>
      simp [Transaction.entries, Transaction.action, Bank.Action.posting?, postings, Entry.map,
        Movement.map, hmove, Transfer.movement, Transfer.map, Deposit.movement, Deposit.map,
        Withdrawal.reservation, Withdrawal.map]
  -- the legs of a refund undo the reservation
  | compensated _ _ _ _ _ hrev | recoveredCompensated _ _ _ hrev =>
      simp [Transaction.entries, Transaction.action, Bank.Action.posting?, postings, Entry.map,
        Movement.map, hrev.1, Withdrawal.reversal]
  -- the others move no money
  | _ => rfl

end Justified

end MiniWallet

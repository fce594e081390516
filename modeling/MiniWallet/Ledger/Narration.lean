import Mathlib.Data.Multiset.AddSub
import MiniWallet.Ledger.Books

/-!
# What the events tell

A `Fact` is what an event says has happened, reduced to the identifiers it carries. The same facts
can be read off the rows of the domain tables. The outbox tells the truth when both readings give
the same facts, each as often.

* `EventPayload.fact?`: the fact that an event reports.
* `Database.facts`: the facts that the domain tables hold.
* `Narrated.facts`: the event of a transaction reports the facts of the rows that it writes.
* `Database.facts_post`, `Database.reported_post`: what a transaction adds to either side.
-/

namespace MiniWallet

open Numeric

variable {α β : Type}

/-- What an event says has happened, with the identifiers it carries. -/
inductive Fact
  | accountOpened (account user : String)
  | seedCompleted (account : String)
  | transferCompleted (transfer source target : String)
  | transferFailed (transfer source target : String)
  | depositCompleted (deposit account : String)
  | depositRejected (deposit account : String)
  | withdrawalInitiated (withdrawal account : String)
  | withdrawalFailed (withdrawal : Option String) (account : String)
deriving DecidableEq, Repr

/-- The fact that an event reports. The completion of a withdrawal may be reported more than once,
so it is not counted among the facts. -/
def EventPayload.fact? : EventPayload → Option Fact
  | accountOpened p => some (.accountOpened p.accountId p.userId)
  | seedCompleted p => some (.seedCompleted p.accountId)
  | transferCompleted p => some (.transferCompleted p.transferId p.fromAccountId p.toAccountId)
  | transferFailed p => some (.transferFailed p.transferId p.fromAccountId p.toAccountId)
  | depositCompleted p => some (.depositCompleted p.depositId p.accountId)
  | depositRejected p => some (.depositRejected p.depositId p.accountId)
  | withdrawalInitiated p => some (.withdrawalInitiated p.withdrawalId p.accountId)
  | withdrawalCompleted _ => none
  | withdrawalFailed p => some (.withdrawalFailed (some p.withdrawalId) p.accountId)

/-! ## Facts of the rows -/

/-- An account that belongs to a user was opened. -/
def Account.fact? (a : Account) : Option Fact :=
  a.userId.map fun user => .accountOpened a.id.str user.str

/-- The credit leg of a seed, or of a reversal, stands for its pair. -/
def LedgerEntry.fact? (l : LedgerEntry α) : Option Fact :=
  match l.direction, l.entryType with
  | .credit, .seed => some (.seedCompleted l.accountId.str)
  | .credit, .withdrawalReversal =>
      some (.withdrawalFailed (l.referenceId.map UUID.str) l.accountId.str)
  | _, _ => none

/-- A transfer has completed or failed. -/
def Transfer.fact (t : Transfer α) : Fact :=
  match t.status with
  | .completed => .transferCompleted t.id.str t.fromAccountId.str t.toAccountId.str
  | .failed => .transferFailed t.id.str t.fromAccountId.str t.toAccountId.str

/-- A deposit has completed or has been rejected, once it is settled. -/
def Deposit.fact? (d : Deposit α) : Option Fact :=
  match d.status with
  | .completed => some (.depositCompleted d.id.str d.accountId.str)
  | .rejected => some (.depositRejected d.id.str d.accountId.str)
  | .pending => none

/-- A withdrawal was initiated, whatever became of it. -/
def Withdrawal.fact (w : Withdrawal α) : Fact := .withdrawalInitiated w.id.str w.accountId.str

namespace Database

/-- The facts that the domain tables hold. -/
def facts (db : Database) : List Fact :=
  db.accounts.filterMap Account.fact? ++ (db.ledgerEntries.filterMap LedgerEntry.fact? ++
    (db.transfers.map Transfer.fact ++ (db.deposits.filterMap Deposit.fact? ++
      db.withdrawals.map Withdrawal.fact)))

/-- The facts that the outbox reports. -/
def reported (db : Database) : List Fact := db.outbox.filterMap (·.payload.payload.fact?)

end Database

/-! ## Facts of a transaction -/

namespace Transaction

/-- The accounts that a transaction inserts. -/
def accounts : Transaction → List Account
  | opened a _ => [a]
  | _ => []

/-- The events that a transaction publishes. -/
def events : Transaction → List OutboxRow
  | opened _ event | seeded _ event | transferFailed _ event | transferred _ _ event
  | depositRejected _ _ event | deposited _ _ _ event | reserved _ _ event
  | completed _ _ _ event | compensated _ _ _ _ event => [event]
  | empty | submitted _ _ => []

/-- The facts of the rows that a transaction writes. -/
def facts (T : Transaction) : List Fact :=
  T.accounts.filterMap Account.fact? ++
    ((T.entries.flatMap Entry.legs).filterMap LedgerEntry.fact? ++
    (T.transfers.map Transfer.fact ++ (T.deposits.filterMap Deposit.fact? ++
      T.withdrawals.map Withdrawal.fact)))

end Transaction

/-- The legs of an entry report a seed or a reversal, and nothing else. -/
theorem Entry.legs_fact (e : Entry α) :
    e.legs.filterMap LedgerEntry.fact? =
      match e.movement.kind with
      | .seed => [.seedCompleted e.movement.target.str]
      | .withdrawalReversal =>
          [.withdrawalFailed (e.movement.reference.map UUID.str) e.movement.target.str]
      | _ => [] := by
  have h := e.double
  -- the debit leg reports nothing
  have hdebit : e.debit.fact? = none := by
    simp [LedgerEntry.fact?, h.debit_direction]
  -- the credit leg reports by the kind of the movement
  have hcredit : e.credit.fact? =
      match e.movement.kind with
      | .seed => some (.seedCompleted e.movement.target.str)
      | .withdrawalReversal =>
          some (.withdrawalFailed (e.movement.reference.map UUID.str) e.movement.target.str)
      | _ => none := by
    rw [LedgerEntry.fact?, h.credit_direction, h.credit_kind, h.credit_account, h.credit_reference]
    cases e.movement.kind <;> rfl
  rw [legs, List.filterMap_cons_none hdebit]
  cases hkind : e.movement.kind <;> simp [hcredit, hkind]

section Narrated

attribute [local simp] Transaction.events Transaction.facts Transaction.accounts Transaction.entries
  Transaction.transfers Transaction.deposits Transaction.withdrawals EventPayload.fact?
  Entry.legs_fact

/-- The event of a transaction reports the facts of the rows that it writes. -/
theorem Narrated.facts {σ : Session} {T : Transaction} (h : Narrated σ T) (hT : Justified σ T) :
    T.events.filterMap (·.payload.payload.fact?) = T.facts := by
  cases h with
  | empty => rfl
  | submitted => rfl
  | opened huser hevent => simp [hevent.payload, Account.fact?, huser]
  | seeded _ hevent =>
      cases hT with
      | seeded _ hkind => simp [hevent.payload, hkind]
  | transferFailed _ hevent =>
      cases hT with
      | transferFailed _ hstatus => simp [hevent.payload, Transfer.fact, hstatus]
  | transferred _ hevent =>
      cases hT with
      | transferred _ _ hstatus hmove =>
          simp [hevent.payload, hmove, Transfer.movement, Transfer.fact, hstatus]
  | depositRejected _ hevent =>
      cases hT with
      | depositRejected _ hstatus =>
          simp [hevent.payload, Deposit.fact?, DepositSet.apply, hstatus]
  | deposited _ hevent =>
      cases hT with
      | deposited _ _ hstatus hmove =>
          simp [hevent.payload, hmove, Deposit.movement, Deposit.fact?, DepositSet.apply, hstatus]
  | reserved hevent =>
      cases hT with
      | reserved _ _ _ _ _ hmove =>
          simp [hevent.payload, hmove, Withdrawal.reservation, Withdrawal.fact]
  | completed _ _ hevent => simp [hevent.payload]
  | compensated _ hevent =>
      -- the reversal refers to the withdrawal that is compensated, whoever compensates it
      cases hT with
      | compensated _ _ _ _ _ hrev => simp [hevent.payload, hrev.1, Withdrawal.reversal]
      | recoveredCompensated _ _ _ hrev =>
          simp [hevent.payload, hrev.1, Withdrawal.reversal, Withdrawal.loaded, Withdrawal.map]

end Narrated

/-! ## The tables after a transaction -/

namespace Database

variable (db : Database) (T : Transaction)

/-- Updates of withdrawals add neither accounts nor events. -/
theorem accounts_outbox_sets (id : UUID) (sets : List WithdrawalSet) :
    (db.applyAll (sets.map (.setWithdrawal id))).accounts = db.accounts ∧
      (db.applyAll (sets.map (.setWithdrawal id))).outbox = db.outbox := by
  induction sets generalizing db with
  | nil => exact ⟨rfl, rfl⟩
  | cons s sets ih =>
      obtain ⟨ha, ho⟩ := ih ((Write.setWithdrawal id s).apply db)
      exact ⟨ha.trans (by simp), ho.trans (by simp)⟩

/-- The table of accounts after a transaction. -/
theorem accounts_post : (db.applyAll T.writes).accounts = T.accounts ++ db.accounts := by
  cases T with
  | completed id before set event | compensated id before e set event =>
      simp [Transaction.writes, Transaction.accounts, applyAll_append, Row.account?,
        accounts_outbox_sets]
  | _ => simp [Transaction.writes, Transaction.accounts, Row.account?]

/-- The outbox after a transaction. -/
theorem outbox_post : (db.applyAll T.writes).outbox = T.events ++ db.outbox := by
  cases T with
  | completed id before set event | compensated id before e set event =>
      simp [Transaction.writes, Transaction.events, applyAll_append, Row.outbox?,
        accounts_outbox_sets]
  | _ => simp [Transaction.writes, Transaction.events, Row.outbox?]

/-- What the outbox reports after a transaction. -/
theorem reported_post : (db.applyAll T.writes).reported =
    T.events.filterMap (·.payload.payload.fact?) ++ db.reported := by
  rw [reported, outbox_post, List.filterMap_append, reported]

/-- The facts after a transaction that inserts only deposits with a new identifier. -/
theorem facts_post (h : ∀ d ∈ T.deposits, ∀ d' ∈ db.deposits, d'.id ≠ d.id) :
    (db.applyAll T.writes).facts.Perm (T.facts ++ db.facts) := by
  have hlegs : (db.applyAll T.writes).ledgerEntries.filterMap LedgerEntry.fact? |>.Perm
      ((T.entries.flatMap Entry.legs).filterMap LedgerEntry.fact? ++
        db.ledgerEntries.filterMap LedgerEntry.fact?) := by
    refine ((db.ledgerEntries_post T).filterMap _).trans (.of_eq ?_)
    have hstored (e : Entry Decimal) :
        e.stored.legs.filterMap LedgerEntry.fact? = e.legs.filterMap LedgerEntry.fact? := rfl
    simp only [List.filterMap_append, List.filterMap_flatMap, hstored]
  have hwithdrawals : (db.applyAll T.writes).withdrawals.map Withdrawal.fact =
      T.withdrawals.map Withdrawal.fact ++ db.withdrawals.map Withdrawal.fact := by
    -- an update of a withdrawal changes neither its identifier nor its account
    have hupdate (w : Withdrawal Ticks) : (T.update w).fact = w.fact := by
      have haccount := congrArg (·.source) (T.update_reservation w)
      rw [Withdrawal.fact, Withdrawal.fact, T.update_id]
      exact congrArg (fun a : UUID => Fact.withdrawalInitiated w.id.str a.str) haccount
    rw [withdrawals_post, List.map_append, List.map_map, List.map_map]
    exact congrArg _ (List.map_congr_left fun w _ => hupdate w)
  have htransfers : (db.applyAll T.writes).transfers.map Transfer.fact =
      T.transfers.map Transfer.fact ++ db.transfers.map Transfer.fact := by
    rw [transfers_post, List.map_append, List.map_map]
    rfl
  -- no deposit that was there before is set by the transaction
  have hdeposits : (db.applyAll T.writes).deposits.filterMap Deposit.fact? =
      T.deposits.filterMap Deposit.fact? ++ db.deposits.filterMap Deposit.fact? := by
    rw [deposits_post db T h, List.filterMap_append, List.filterMap_map]
    rfl
  -- the parts are put together as multisets, where their order does not matter
  rw [facts, facts, Transaction.facts, accounts_post, htransfers, hdeposits, hwithdrawals,
    List.filterMap_append, ← Multiset.coe_eq_coe]
  rw [← Multiset.coe_eq_coe] at hlegs
  simp only [← Multiset.coe_add] at hlegs ⊢
  rw [hlegs]
  abel

end Database

end MiniWallet

import Mathlib.Algebra.BigOperators.Group.List.Basic
import Mathlib.Tactic.Abel
import MiniWallet.Schema.Tables

/-!
# The database

A database is the list of its rows, each tagged with its table. The ledger is append-only and so are
the other tables, apart from two updates: of a deposit by the transaction that inserted it and of a
withdrawal along its saga. A transaction collects `Write`s; committing it applies them in order.

* `Database.getBalance`: the balance of an account, derived from the legs of the ledger.
* `Write.apply`, `Database.applyAll`: what a committed transaction does to the tables.
* The lemmas say, for each table, what one write adds to it. They are in the simp set, so a proof
  about a commit never unfolds the representation.
-/

namespace MiniWallet

open Numeric

/-- The tables, as one list of tagged rows. -/
structure Database where
  /-- The rows of all tables, the newest first. -/
  rows : List (Row Ticks)

/-! ## Tables -/

variable {α : Type}

namespace Row

/-- The row as a row of `accounts`. -/
def account? : Row α → Option Account
  | account a => some a
  | _ => none

/-- The row as a row of `ledger_entries`. -/
def ledger? : Row α → Option (LedgerEntry α)
  | ledger e => some e
  | _ => none

/-- The row as a row of `transfers`. -/
def transfer? : Row α → Option (Transfer α)
  | transfer t => some t
  | _ => none

/-- The row as a row of `deposits`. -/
def deposit? : Row α → Option (Deposit α)
  | deposit d => some d
  | _ => none

/-- The row as a row of `withdrawals`. -/
def withdrawal? : Row α → Option (Withdrawal α)
  | withdrawal w => some w
  | _ => none

/-- The row as a row of `outbox`. -/
def outbox? : Row α → Option OutboxRow
  | outbox o => some o
  | _ => none

end Row

namespace Database

/-- The table `accounts`. -/
def accounts (db : Database) : List Account := db.rows.filterMap Row.account?

/-- The table `ledger_entries`. -/
def ledgerEntries (db : Database) : List (LedgerEntry Ticks) := db.rows.filterMap Row.ledger?

/-- The table `transfers`. -/
def transfers (db : Database) : List (Transfer Ticks) := db.rows.filterMap Row.transfer?

/-- The table `deposits`. -/
def deposits (db : Database) : List (Deposit Ticks) := db.rows.filterMap Row.deposit?

/-- The table `withdrawals`. -/
def withdrawals (db : Database) : List (Withdrawal Ticks) := db.rows.filterMap Row.withdrawal?

/-- The table `outbox`. -/
def outbox (db : Database) : List OutboxRow := db.rows.filterMap Row.outbox?

/-- All values that the unique constraints range over. -/
def keys (db : Database) : List UniqueKey := db.rows.flatMap Row.keys

/-- The account with a given identifier. -/
def accountById (db : Database) (id : UUID) : Option Account := db.accounts.find? (·.id = id)

/-- The transfer with a given idempotency key. -/
def transferByKey (db : Database) (key : String) : Option (Transfer Ticks) :=
  db.transfers.find? (·.idempotencyKey = key)

/-- The transfer with a given identifier. -/
def transferById (db : Database) (id : UUID) : Option (Transfer Ticks) :=
  db.transfers.find? (·.id = id)

/-- The deposit with a given identifier. -/
def depositById (db : Database) (id : UUID) : Option (Deposit Ticks) :=
  db.deposits.find? (·.id = id)

/-- The deposit with a given reference of the rail. -/
def depositByReference (db : Database) (ref : String) : Option (Deposit Ticks) :=
  db.deposits.find? (·.externalReference = ref)

/-- The withdrawal with a given idempotency key. -/
def withdrawalByKey (db : Database) (key : String) : Option (Withdrawal Ticks) :=
  db.withdrawals.find? (·.idempotencyKey = key)

/-- The withdrawal with a given identifier. -/
def withdrawalById (db : Database) (id : UUID) : Option (Withdrawal Ticks) :=
  db.withdrawals.find? (·.id = id)

/-- The ledger leg with a given idempotency key. -/
def ledgerEntryByKey (db : Database) (key : String) : Option (LedgerEntry Ticks) :=
  db.ledgerEntries.find? (·.idempotencyKey = some key)

end Database

/-- The amount of a leg, counted positive for a credit and negative for a debit. -/
def LedgerEntry.signed (e : LedgerEntry Ticks) : Ticks :=
  match e.direction with
  | .credit => e.amount
  | .debit => -e.amount

/-- What a leg contributes to the balance of account `a`. -/
def LedgerEntry.contribution (a : UUID) (e : LedgerEntry Ticks) : Ticks :=
  if e.accountId = a then e.signed else 0

/-- The balance of an account: the signed sum of its legs. -/
def Database.getBalance (db : Database) (a : UUID) : Ticks :=
  ((db.ledgerEntries.filter (·.accountId = a)).map LedgerEntry.signed).sum

/-! ## Writes -/

/-- The columns that an update of a deposit sets. -/
structure DepositSet where
  status : DepositStatus
  rejectionReason : Option String := none
  completedAt : Option Time := none
  updatedAt : Time

/-- The deposit after the update. A column without a value is not part of it. -/
def DepositSet.apply (s : DepositSet) (d : Deposit α) : Deposit α :=
  { d with
    status := s.status
    rejectionReason := s.rejectionReason.or d.rejectionReason
    completedAt := s.completedAt.or d.completedAt
    updatedAt := s.updatedAt }

/-- The columns that an update of a withdrawal sets. -/
structure WithdrawalSet where
  status : WithdrawalStatus
  failureCode : Option String := none
  externalReference : Option String := none
  submittedAt : Option Time := none
  completedAt : Option Time := none
  updatedAt : Time

/-- The withdrawal after the update. A column without a value is not part of it. -/
def WithdrawalSet.apply (s : WithdrawalSet) (w : Withdrawal α) : Withdrawal α :=
  { w with
    status := s.status
    failureCode := s.failureCode.or w.failureCode
    externalReference := s.externalReference.or w.externalReference
    submittedAt := s.submittedAt.or w.submittedAt
    completedAt := s.completedAt.or w.completedAt
    updatedAt := s.updatedAt }

/-- The texts of the update fit their columns. -/
def WithdrawalSet.fits (s : WithdrawalSet) : Bool :=
  (s.failureCode.map (varchar 50)).getD true && (s.externalReference.map (varchar 255)).getD true

/-- One statement of a transaction that changes a table. -/
inductive Write
  /-- `INSERT` of an object, with the amount as it is in memory. -/
  | insert (row : Row Decimal)
  /-- `UPDATE deposits … WHERE id = …`. -/
  | setDeposit (id : UUID) (set : DepositSet)
  /-- `UPDATE withdrawals … WHERE id = …`. -/
  | setWithdrawal (id : UUID) (set : WithdrawalSet)

/-- Update the deposit with the given identifier, leave every other row alone. -/
def Row.setDeposit (id : UUID) (set : DepositSet) : Row α → Row α
  | deposit d => deposit (if d.id = id then set.apply d else d)
  | r => r

/-- Update the withdrawal with the given identifier, leave every other row alone. -/
def Row.setWithdrawal (id : UUID) (set : WithdrawalSet) : Row α → Row α
  | withdrawal w => withdrawal (if w.id = id then set.apply w else w)
  | r => r

namespace Write

/-- The tables after a write. -/
def apply (w : Write) (db : Database) : Database :=
  match w with
  | insert row => ⟨row.stored :: db.rows⟩
  | setDeposit id set => ⟨db.rows.map (Row.setDeposit id set)⟩
  | setWithdrawal id set => ⟨db.rows.map (Row.setWithdrawal id set)⟩

/-- The values that a write adds to the unique constraints. -/
def keys : Write → List UniqueKey
  | insert row => row.keys
  | _ => []

/-- The legs that a write adds to the ledger. -/
def legs : Write → List (LedgerEntry Ticks)
  | insert (.ledger e) => [e.stored]
  | _ => []

end Write

/-- The tables after the writes of a transaction, in order. -/
def Database.applyAll (db : Database) (ws : List Write) : Database :=
  ws.foldl (fun db w => w.apply db) db

/-! ## What a write adds to each table -/

namespace Database

variable (db : Database)

/-- No write changes nothing. -/
@[simp]
theorem applyAll_nil : db.applyAll [] = db := rfl

/-- Writes are made one after the other. -/
@[simp]
theorem applyAll_cons (w : Write) (ws : List Write) :
    db.applyAll (w :: ws) = (w.apply db).applyAll ws := rfl

/-- Writes in two parts. -/
theorem applyAll_append (ws ws' : List Write) :
    db.applyAll (ws ++ ws') = (db.applyAll ws).applyAll ws' :=
  List.foldl_append

section Insert

variable (row : Row Decimal)

/-- Inserting a row adds an account if the row is one. -/
@[simp]
theorem accounts_insert :
    ((Write.insert row).apply db).accounts = row.account?.toList ++ db.accounts := by
  cases row <;> rfl

/-- Inserting a row adds a ledger entry if the row is one. -/
@[simp]
theorem ledgerEntries_insert :
    ((Write.insert row).apply db).ledgerEntries =
      (row.ledger?.map LedgerEntry.stored).toList ++ db.ledgerEntries := by
  cases row <;> rfl

/-- Inserting a row adds a transfer if the row is one. -/
@[simp]
theorem transfers_insert :
    ((Write.insert row).apply db).transfers =
      (row.transfer?.map Transfer.stored).toList ++ db.transfers := by
  cases row <;> rfl

/-- Inserting a row adds a deposit if the row is one. -/
@[simp]
theorem deposits_insert :
    ((Write.insert row).apply db).deposits =
      (row.deposit?.map Deposit.stored).toList ++ db.deposits := by
  cases row <;> rfl

/-- Inserting a row adds a withdrawal if the row is one. -/
@[simp]
theorem withdrawals_insert :
    ((Write.insert row).apply db).withdrawals =
      (row.withdrawal?.map Withdrawal.stored).toList ++ db.withdrawals := by
  cases row <;> rfl

/-- Inserting a row adds an outbox row if the row is one. -/
@[simp]
theorem outbox_insert :
    ((Write.insert row).apply db).outbox = row.outbox?.toList ++ db.outbox := by
  cases row <;> rfl

end Insert

section Update

/-- An update that keeps the projection of every row keeps the projected table. -/
private theorem filterMap_map_eq {β : Type} {f : Row Ticks → Option β} {g : Row Ticks → Row Ticks}
    (h : ∀ r, f (g r) = f r) (rows : List (Row Ticks)) :
    (rows.map g).filterMap f = rows.filterMap f := by
  rw [List.filterMap_map]
  exact congrArg (List.filterMap · rows) (funext h)

variable (id : UUID)

/-- Updating a deposit leaves the accounts alone. -/
@[simp]
theorem accounts_setDeposit (set : DepositSet) :
    ((Write.setDeposit id set).apply db).accounts = db.accounts :=
  filterMap_map_eq (fun r => by cases r <;> rfl) db.rows

/-- Updating a deposit leaves the ledger alone. -/
@[simp]
theorem ledgerEntries_setDeposit (set : DepositSet) :
    ((Write.setDeposit id set).apply db).ledgerEntries = db.ledgerEntries :=
  filterMap_map_eq (fun r => by cases r <;> rfl) db.rows

/-- Updating a deposit leaves the transfers alone. -/
@[simp]
theorem transfers_setDeposit (set : DepositSet) :
    ((Write.setDeposit id set).apply db).transfers = db.transfers :=
  filterMap_map_eq (fun r => by cases r <;> rfl) db.rows

/-- Updating a deposit changes the row with the identifier. -/
@[simp]
theorem deposits_setDeposit (set : DepositSet) :
    ((Write.setDeposit id set).apply db).deposits =
      db.deposits.map fun d => if d.id = id then set.apply d else d := by
  simp only [Write.apply, deposits, List.filterMap_map, List.map_filterMap]
  exact congrArg (List.filterMap · db.rows) (funext fun r => by cases r <;> rfl)

/-- Updating a deposit leaves the withdrawals alone. -/
@[simp]
theorem withdrawals_setDeposit (set : DepositSet) :
    ((Write.setDeposit id set).apply db).withdrawals = db.withdrawals :=
  filterMap_map_eq (fun r => by cases r <;> rfl) db.rows

/-- Updating a deposit leaves the outbox alone. -/
@[simp]
theorem outbox_setDeposit (set : DepositSet) :
    ((Write.setDeposit id set).apply db).outbox = db.outbox :=
  filterMap_map_eq (fun r => by cases r <;> rfl) db.rows

/-- Updating a withdrawal leaves the accounts alone. -/
@[simp]
theorem accounts_setWithdrawal (set : WithdrawalSet) :
    ((Write.setWithdrawal id set).apply db).accounts = db.accounts :=
  filterMap_map_eq (fun r => by cases r <;> rfl) db.rows

/-- Updating a withdrawal leaves the ledger alone. -/
@[simp]
theorem ledgerEntries_setWithdrawal (set : WithdrawalSet) :
    ((Write.setWithdrawal id set).apply db).ledgerEntries = db.ledgerEntries :=
  filterMap_map_eq (fun r => by cases r <;> rfl) db.rows

/-- Updating a withdrawal leaves the transfers alone. -/
@[simp]
theorem transfers_setWithdrawal (set : WithdrawalSet) :
    ((Write.setWithdrawal id set).apply db).transfers = db.transfers :=
  filterMap_map_eq (fun r => by cases r <;> rfl) db.rows

/-- Updating a withdrawal leaves the deposits alone. -/
@[simp]
theorem deposits_setWithdrawal (set : WithdrawalSet) :
    ((Write.setWithdrawal id set).apply db).deposits = db.deposits :=
  filterMap_map_eq (fun r => by cases r <;> rfl) db.rows

/-- Updating a withdrawal changes the row with the identifier. -/
@[simp]
theorem withdrawals_setWithdrawal (set : WithdrawalSet) :
    ((Write.setWithdrawal id set).apply db).withdrawals =
      db.withdrawals.map fun w => if w.id = id then set.apply w else w := by
  simp only [Write.apply, withdrawals, List.filterMap_map, List.map_filterMap]
  exact congrArg (List.filterMap · db.rows) (funext fun r => by cases r <;> rfl)

/-- Updating a withdrawal leaves the outbox alone. -/
@[simp]
theorem outbox_setWithdrawal (set : WithdrawalSet) :
    ((Write.setWithdrawal id set).apply db).outbox = db.outbox :=
  filterMap_map_eq (fun r => by cases r <;> rfl) db.rows

end Update

/-! ## Keys -/

/-- Storing an object does not change the keys it occupies. -/
@[simp]
theorem keys_stored (row : Row Decimal) : row.stored.keys = row.keys := by
  cases row <;> rfl

/-- Updates do not change the keys that a row occupies. -/
theorem keys_map_eq {g : Row Ticks → Row Ticks} (h : ∀ r, (g r).keys = r.keys)
    (rows : List (Row Ticks)) : (rows.map g).flatMap Row.keys = rows.flatMap Row.keys := by
  rw [List.flatMap_map]
  exact congrArg (rows.flatMap ·) (funext h)

/-- A write adds its keys and nothing else. -/
theorem keys_apply (w : Write) : (w.apply db).keys = w.keys ++ db.keys := by
  cases w with
  | insert row => simp [Write.apply, keys, Write.keys]
  | setDeposit id set =>
      refine keys_map_eq (fun r => ?_) db.rows
      cases r <;> try rfl
      simp only [Row.setDeposit, Row.keys]
      split <;> rfl
  | setWithdrawal id set =>
      refine keys_map_eq (fun r => ?_) db.rows
      cases r <;> try rfl
      simp only [Row.setWithdrawal, Row.keys]
      split <;> rfl

/-- A transaction adds the keys of its writes and nothing else. -/
theorem keys_applyAll (ws : List Write) :
    (db.applyAll ws).keys.Perm (ws.flatMap Write.keys ++ db.keys) := by
  induction ws generalizing db with
  | nil => exact .refl _
  | cons w ws ih =>
      rw [applyAll_cons, List.flatMap_cons, List.append_assoc]
      refine (ih (w.apply db)).trans ?_
      rw [keys_apply]
      exact List.perm_append_comm_assoc ..

/-- A withdrawal that a transaction does not update stays as it is. -/
theorem mem_withdrawals_applyAll {row : Withdrawal Ticks} {ws : List Write}
    (hrow : row ∈ db.withdrawals) (hws : ∀ set, .setWithdrawal row.id set ∉ ws) :
    row ∈ (db.applyAll ws).withdrawals := by
  induction ws generalizing db with
  | nil => exact hrow
  | cons w ws ih =>
      refine ih (w.apply db) ?_ fun set hset => hws set (List.mem_cons_of_mem _ hset)
      cases w with
      | insert r => simp [hrow]
      | setDeposit id set => simpa using hrow
      | setWithdrawal id set =>
          have hne : row.id ≠ id := by
            rintro rfl
            exact hws set (List.mem_cons_self ..)
          rw [withdrawals_setWithdrawal, List.mem_map]
          exact ⟨row, hrow, if_neg hne⟩

/-- An account of the tables after a transaction was there before, or the transaction inserts it. -/
theorem mem_accounts_applyAll {a : Account} {ws : List Write} :
    a ∈ (db.applyAll ws).accounts ↔ .insert (.account a) ∈ ws ∨ a ∈ db.accounts := by
  induction ws generalizing db with
  | nil => simp
  | cons w ws ih =>
      rw [applyAll_cons, ih, List.mem_cons, or_assoc, or_left_comm]
      refine or_congr_right ?_
      cases w with
      | insert row => cases row <;> simp [Row.account?]
      | setDeposit id set => simp
      | setWithdrawal id set => simp

/-- What holds of every row before a transaction and of every object that it inserts holds of every
row afterwards, if updates keep it. -/
theorem forall_rows_applyAll {P : Row Ticks → Prop} {ws : List Write}
    (hdeposit : ∀ id set r, P r → P (Row.setDeposit id set r))
    (hwithdrawal : ∀ id set r, P r → P (Row.setWithdrawal id set r))
    (hdb : ∀ r ∈ db.rows, P r) (hws : ∀ row, .insert row ∈ ws → P row.stored) :
    ∀ r ∈ (db.applyAll ws).rows, P r := by
  induction ws generalizing db with
  | nil => exact hdb
  | cons w ws ih =>
      refine ih (w.apply db) ?_ fun row hrow => hws row (List.mem_cons_of_mem _ hrow)
      -- an insert adds its row, and an update maps the rows of its table
      cases w with
      | insert row =>
          intro r hr
          rcases List.mem_cons.mp hr with rfl | hr
          · exact hws row (List.mem_cons_self ..)
          · exact hdb r hr
      | setDeposit id set =>
          intro r hr
          obtain ⟨r', hr', rfl⟩ := List.mem_map.mp hr
          exact hdeposit id set r' (hdb r' hr')
      | setWithdrawal id set =>
          intro r hr
          obtain ⟨r', hr', rfl⟩ := List.mem_map.mp hr
          exact hwithdrawal id set r' (hdb r' hr')

/-- An account is found exactly if the table has one with the identifier. -/
theorem accountById_isSome {id : UUID} :
    (db.accountById id).isSome ↔ ∃ a ∈ db.accounts, a.id = id := by
  simp [accountById]

/-- An account that exists is still there after a transaction. -/
theorem accountById_applyAll {ws : List Write} {id : UUID} (h : (db.accountById id).isSome) :
    ((db.applyAll ws).accountById id).isSome := by
  obtain ⟨a, ha, hid⟩ := db.accountById_isSome.mp h
  exact (db.applyAll ws).accountById_isSome.mpr ⟨a, db.mem_accounts_applyAll.mpr (.inr ha), hid⟩

/-- The accounts that a row refers to exist. -/
def Refers (row : Row α) : Prop := ∀ fk ∈ row.foreignKeys, (db.accountById fk.1).isSome

/-- No account disappears. -/
theorem Refers.mono {db db' : Database} {row : Row α} (hrow : db.Refers row)
    (h : ∀ a ∈ db.accounts, a ∈ db'.accounts) : db'.Refers row := by
  intro fk hfk
  obtain ⟨a, ha, hid⟩ := db.accountById_isSome.mp (hrow fk hfk)
  exact db'.accountById_isSome.mpr ⟨a, h a ha, hid⟩

/-- Every account that a row refers to exists after a transaction, if this was so before and the
objects that the transaction inserts refer to accounts that exist at its end. -/
theorem refers_applyAll {ws : List Write} (hdb : ∀ r ∈ db.rows, db.Refers r)
    (hws : ∀ row, .insert row ∈ ws → (db.applyAll ws).Refers row) :
    ∀ r ∈ (db.applyAll ws).rows, (db.applyAll ws).Refers r := by
  refine db.forall_rows_applyAll (fun id set r hr => ?_) (fun id set r hr => ?_) (fun r hr => ?_)
    fun row hrow => ?_
  · cases r with
    | deposit d => exact fun fk hfk => nomatch hfk
    | _ => exact hr
  · cases r with
    | withdrawal w =>
        simp only [Row.setWithdrawal]
        split <;> exact hr
    | _ => exact hr
  · exact (hdb r hr).mono fun a ha => db.mem_accounts_applyAll.mpr (.inr ha)
  · cases row <;> exact hws _ hrow

/-! ## Ledger and balances -/

/-- A write adds its legs to the ledger and nothing else. -/
theorem ledgerEntries_apply (w : Write) :
    (w.apply db).ledgerEntries = w.legs ++ db.ledgerEntries := by
  cases w with
  | insert row => cases row <;> rfl
  | setDeposit id set => simp [Write.legs]
  | setWithdrawal id set => simp [Write.legs]

/-- The legs that a transaction adds to the ledger, the last one first. -/
theorem ledgerEntries_applyAll (ws : List Write) :
    (db.applyAll ws).ledgerEntries = (ws.flatMap Write.legs).reverse ++ db.ledgerEntries := by
  induction ws generalizing db with
  | nil => rfl
  | cons w ws ih =>
      have hrev : w.legs.reverse = w.legs := by
        cases w with
        | insert row => cases row <;> rfl
        | _ => rfl
      rw [applyAll_cons, ih, ledgerEntries_apply, List.flatMap_cons, List.reverse_append, hrev,
        List.append_assoc]

/-- The balance as the sum of what every leg contributes. -/
theorem getBalance_eq (a : UUID) :
    db.getBalance a = (db.ledgerEntries.map (LedgerEntry.contribution a)).sum := by
  rw [getBalance]
  induction db.ledgerEntries with
  | nil => rfl
  | cons e es ih =>
      by_cases h : e.accountId = a
      · simp [h, LedgerEntry.contribution, ih]
      · simp [h, LedgerEntry.contribution, ih]

/-- A transaction changes a balance by what its legs contribute. -/
theorem getBalance_applyAll (ws : List Write) (a : UUID) :
    (db.applyAll ws).getBalance a =
      ((ws.flatMap Write.legs).map (LedgerEntry.contribution a)).sum + db.getBalance a := by
  rw [getBalance_eq, ledgerEntries_applyAll, List.map_append, List.sum_append, List.map_reverse,
    List.sum_reverse, ← getBalance_eq]

end Database

end MiniWallet

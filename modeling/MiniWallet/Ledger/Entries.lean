import MiniWallet.Bookkeeping.Journal
import MiniWallet.Schema.Database

/-!
# Double entries

A movement of money is a posting together with what it was made for. In the ledger it appears as two
legs with the same transaction identifier. An `Entry` is such a pair with the proof that it is one,
so that a journal of entries is balanced by construction.

* `Transfer.movement`, `Deposit.movement`, `Withdrawal.reservation`, `Withdrawal.reversal`: the
  movements that the rows of the domain tables stand for.
* `Entry.contribution`: the legs of an entry contribute to a balance what its posting does.
* `sum_signed_legs`: the signed sum over any journal of entries is zero.
-/

namespace MiniWallet

open Numeric Bookkeeping

variable {α β : Type}

/-- A movement of money, with what it was made for. -/
structure Movement (Amount : Type) extends Posting UUID Amount where
  kind : EntryType
  /-- The row of a domain table that the movement belongs to. -/
  reference : Option UUID
  currency : String

namespace Movement

/-- A movement with its amount converted. -/
def map (f : α → β) (m : Movement α) : Movement β :=
  { m with amount := f m.amount }

/-- The movement as the ledger stores it. -/
abbrev stored : Movement Decimal → Movement Ticks := map Ticks.ofDecimal

end Movement

/-- The movement of a completed transfer. -/
def Transfer.movement (t : Transfer α) : Movement α where
  source := t.fromAccountId
  target := t.toAccountId
  amount := t.amount
  kind := .transfer
  reference := some t.id
  currency := t.currency

/-- The movement of a completed deposit. -/
def Deposit.movement (d : Deposit α) : Movement α where
  source := systemAccountId
  target := d.accountId
  amount := d.amount
  kind := .deposit
  reference := some d.id
  currency := d.currency

/-- The movement that reserves the funds of a withdrawal. -/
def Withdrawal.reservation (w : Withdrawal α) : Movement α where
  source := w.accountId
  target := systemAccountId
  amount := w.amount
  kind := .withdrawal
  reference := some w.id
  currency := w.currency

/-- The movement that refunds a withdrawal. -/
def Withdrawal.reversal (w : Withdrawal α) : Movement α where
  source := systemAccountId
  target := w.accountId
  amount := w.amount
  kind := .withdrawalReversal
  reference := some w.id
  currency := w.currency

/-- Two legs that make up one movement. -/
structure DoubleEntry (debit credit : LedgerEntry α) (m : Movement α) : Prop where
  debit_direction : debit.direction = .debit
  credit_direction : credit.direction = .credit
  transactionId : credit.transactionId = debit.transactionId
  debit_account : debit.accountId = m.source
  credit_account : credit.accountId = m.target
  debit_amount : debit.amount = m.amount
  credit_amount : credit.amount = m.amount
  debit_currency : debit.currency = m.currency
  credit_currency : credit.currency = m.currency
  debit_kind : debit.entryType = m.kind
  credit_kind : credit.entryType = m.kind
  debit_reference : debit.referenceId = m.reference
  credit_reference : credit.referenceId = m.reference

/-- A movement with its two legs. -/
structure Entry (Amount : Type) where
  debit : LedgerEntry Amount
  credit : LedgerEntry Amount
  movement : Movement Amount
  double : DoubleEntry debit credit movement

namespace Entry

/-- An entry with its amounts converted. -/
def map (f : α → β) (e : Entry α) : Entry β where
  debit := e.debit.map f
  credit := e.credit.map f
  movement := e.movement.map f
  double :=
    { debit_direction := e.double.debit_direction
      credit_direction := e.double.credit_direction
      transactionId := e.double.transactionId
      debit_account := e.double.debit_account
      credit_account := e.double.credit_account
      debit_amount := congrArg f e.double.debit_amount
      credit_amount := congrArg f e.double.credit_amount
      debit_currency := e.double.debit_currency
      credit_currency := e.double.credit_currency
      debit_kind := e.double.debit_kind
      credit_kind := e.double.credit_kind
      debit_reference := e.double.debit_reference
      credit_reference := e.double.credit_reference }

/-- The entry as the ledger stores it. -/
abbrev stored : Entry Decimal → Entry Ticks := map Ticks.ofDecimal

/-- The identifier that both legs share. -/
def transactionId (e : Entry α) : UUID := e.debit.transactionId

/-- Both legs. -/
def legs (e : Entry α) : List (LedgerEntry α) := [e.debit, e.credit]

/-- Both legs of an entry have its transaction. -/
theorem transactionId_of_mem {e : Entry α} {l : LedgerEntry α} (h : l ∈ e.legs) :
    l.transactionId = e.transactionId := by
  simp only [legs, List.mem_cons, List.not_mem_nil, or_false] at h
  rcases h with rfl | rfl
  · rfl
  · exact e.double.transactionId

/-- Both legs of an entry have its kind. -/
theorem kind_of_mem {e : Entry α} {l : LedgerEntry α} (h : l ∈ e.legs) :
    l.entryType = e.movement.kind := by
  simp only [legs, List.mem_cons, List.not_mem_nil, or_false] at h
  rcases h with rfl | rfl
  · exact e.double.debit_kind
  · exact e.double.credit_kind

/-- Both legs of an entry have its reference. -/
theorem reference_of_mem {e : Entry α} {l : LedgerEntry α} (h : l ∈ e.legs) :
    l.referenceId = e.movement.reference := by
  simp only [legs, List.mem_cons, List.not_mem_nil, or_false] at h
  rcases h with rfl | rfl
  · exact e.double.debit_reference
  · exact e.double.credit_reference

/-- The two legs cancel out. -/
theorem signed_add (e : Entry Ticks) : e.debit.signed + e.credit.signed = 0 := by
  have h := e.double
  rw [LedgerEntry.signed, LedgerEntry.signed, h.debit_direction, h.credit_direction]
  dsimp only
  rw [h.debit_amount, h.credit_amount, neg_add_cancel]

/-- The legs of an entry contribute to a balance what its posting does. -/
theorem contribution (e : Entry Ticks) (a : UUID) :
    e.debit.contribution a + e.credit.contribution a = e.movement.effect a := by
  have h := e.double
  have hd : e.debit.contribution a = if e.movement.source = a then -e.movement.amount else 0 := by
    rw [LedgerEntry.contribution, LedgerEntry.signed, h.debit_direction, h.debit_account]
    dsimp only
    rw [h.debit_amount]
  have hc : e.credit.contribution a = if e.movement.target = a then e.movement.amount else 0 := by
    rw [LedgerEntry.contribution, LedgerEntry.signed, h.credit_direction, h.credit_account]
    dsimp only
    rw [h.credit_amount]
  rw [hd, hc, Posting.effect]
  split <;> split <;> abel

end Entry

/-- The postings of a journal of entries. -/
def postings (js : List (Entry α)) : List (Posting UUID α) := js.map (·.movement.toPosting)

/-- The postings of entries, one by one. -/
@[simp]
theorem postings_cons (e : Entry α) (js : List (Entry α)) :
    postings (e :: js) = e.movement.toPosting :: postings js := rfl

/-- The signed sum of all legs of a journal is zero. -/
theorem sum_signed_legs (js : List (Entry Ticks)) :
    ((js.flatMap Entry.legs).map LedgerEntry.signed).sum = 0 := by
  induction js with
  | nil => rfl
  | cons e js ih =>
      rw [List.flatMap_cons, List.map_append, List.sum_append, ih, add_zero]
      simpa [Entry.legs] using e.signed_add

/-- The legs of a journal contribute to a balance what its postings do. -/
theorem sum_contribution_legs (js : List (Entry Ticks)) (a : UUID) :
    ((js.flatMap Entry.legs).map (LedgerEntry.contribution a)).sum = balance (postings js) a := by
  induction js with
  | nil => rfl
  | cons e js ih =>
      rw [List.flatMap_cons, List.map_append, List.sum_append, ih, postings_cons, balance_cons,
        ← e.contribution a]
      simp [Entry.legs]

/-- The balances of a ledger that holds the legs of a journal are the balances of the journal. -/
theorem getBalance_eq_balance {db : Database} {js : List (Entry Ticks)}
    (h : db.ledgerEntries.Perm (js.flatMap Entry.legs)) (a : UUID) :
    db.getBalance a = balance (postings js) a := by
  rw [Database.getBalance_eq, (h.map _).sum_eq, sum_contribution_legs]

end MiniWallet

import MiniWallet.Bookkeeping.Paging
import MiniWallet.Workers.ActivityConsumer

/-!
# Transaction history

The pages of the history of an account, read from `transaction_activity`. Every page is a query of
its own, ordered by the time of the rows alone, so that the database may return rows of the same
time in a different order for every page.

* `getTransactions`: one page.
* `history`: all pages of an account.
* `pages_partition_iff`: whether they contain every row once.
* `seeds_repeated`: two rows of the same time, on pages of one row.
-/

namespace MiniWallet

open Bookkeeping Numeric

/-! ## The table -/

/-- A row of `transaction_activity` together with its primary key. -/
structure ActivityRow extends TransactionActivity Ticks where
  id : UUID
deriving DecidableEq

/-- The table. The primary keys are different. -/
structure ActivityTable where
  rows : List ActivityRow
  distinct : (rows.map (·.id)).Nodup

/-- An entry of the history. -/
structure TransactionItem where
  entryId : String
  direction : Direction
  amount : String
  currency : String
  entryType : String
  referenceId : Option String
  createdAt : Time
deriving DecidableEq

/-- The entry for a row. -/
def ActivityRow.item (row : ActivityRow) : TransactionItem where
  entryId := row.id.str
  direction := row.direction
  amount := money row.amount.toDecimal
  currency := row.currency
  entryType := row.entryType
  referenceId := row.referenceId.map UUID.str
  createdAt := row.occurredAt

/-- The filters of a request. -/
structure TransactionFilter where
  fromDate : Option Time := none
  toDate : Option Time := none
  entryType : Option String := none

/-- Whether a row is selected. An absent filter is not applied, and an empty `entry_type`
neither. -/
def TransactionFilter.selects (f : TransactionFilter) (accountId : UUID) (row : ActivityRow) :
    Bool :=
  decide (row.accountId = accountId) &&
    (match f.fromDate with
    | none => true
    | some fromDate => decide (fromDate ≤ row.occurredAt)) &&
    (match f.toDate with
    | none => true
    | some toDate => decide (row.occurredAt ≤ toDate)) &&
    (match f.entryType with
    | none => true
    | some entryType => entryType = "" || row.entryType = entryType)

/-- `base_q`: the rows that match a request. -/
def baseQ (table : ActivityTable) (accountId : UUID) (f : TransactionFilter) : List ActivityRow :=
  table.rows.filter (f.selects accountId)

/-- `ORDER BY occurred_at DESC`: an order in which the database may return the rows. -/
abbrev Order (rows : List ActivityRow) := Descending (fun row : ActivityRow => row.occurredAt) rows

/-! ## The pages -/

/-- What `get_transactions` returns. -/
structure TransactionPage where
  items : List TransactionItem
  total : ℕ
  /-- The time of the latest row of the page. -/
  asOf : Option Time

section Request

variable (table : ActivityTable) (accountId : UUID) (f : TransactionFilter)

/-- Read one page of the history, of which the database has ordered the rows in one of the possible
ways. -/
def getTransactions (page limit : ℕ) (order : Order (baseQ table accountId f)) : TransactionPage :=
  let total := (baseQ table accountId f).length
  let rows := order.page page limit
  { items := rows.map ActivityRow.item
    total := total
    asOf := (rows.map (·.occurredAt)).max? }

/-- The entries of the pages `1` to `ceil(total / limit)`, each of them ordered anew. -/
def history (limit : ℕ) (orders : ℕ → Order (baseQ table accountId f)) : List TransactionItem :=
  let total := (getTransactions table accountId f 1 limit (orders 1)).total
  (List.range ((total + limit - 1) / limit)).flatMap fun k =>
    (getTransactions table accountId f (k + 1) limit (orders (k + 1))).items

end Request

variable {table : ActivityTable} {accountId : UUID} {f : TransactionFilter} {limit : ℕ}

/-- The pages are the pages of the matching rows. -/
theorem history_eq (orders : ℕ → Order (baseQ table accountId f)) :
    history table accountId f limit orders =
      (pages orders limit (((baseQ table accountId f).length + limit - 1) / limit)).map
        ActivityRow.item := by
  rw [history, pages, List.map_flatMap]
  rfl

/-- There are enough pages. -/
theorem le_pages (hlimit : 0 < limit) (total : ℕ) :
    total ≤ (total + limit - 1) / limit * limit := by
  have hdiv := Nat.div_add_mod (total + limit - 1) limit
  have hmod := Nat.mod_lt (total + limit - 1) hlimit
  rw [Nat.mul_comm]
  omega

/-- Different rows of the table give different entries. -/
theorem nodup_items (table : ActivityTable) (accountId : UUID) (f : TransactionFilter) :
    ((baseQ table accountId f).map ActivityRow.item).Nodup := by
  have hids : ((baseQ table accountId f).map fun row => row.id).Nodup :=
    table.distinct.sublist (List.filter_sublist.map _)
  have hentries := hids.map UUID.str_injective
  rw [List.map_map] at hentries
  refine List.Nodup.of_map TransactionItem.entryId ?_
  rwa [List.map_map]

/-- For every table, account, filter and limit: the pages contain every matching row once and
nothing else, whatever order the database returns for each of them, exactly if no matching rows of
the same time stand on both sides of the boundary between two pages. -/
theorem pages_partition_iff (table : ActivityTable) (accountId : UUID) (f : TransactionFilter)
    {limit : ℕ} (hlimit : 0 < limit) :
    (∀ orders : ℕ → Order (baseQ table accountId f),
      (history table accountId f limit orders).Perm
        ((baseQ table accountId f).map ActivityRow.item)) ↔
      Separated (fun row : ActivityRow => row.occurredAt) (baseQ table accountId f) limit := by
  have hpages := le_pages hlimit (baseQ table accountId f).length
  constructor
  · intro hall
    refine separated_of_nodup hlimit hpages fun orders => ?_
    have hnodup := (hall orders).nodup_iff.mpr (nodup_items table accountId f)
    rw [history_eq] at hnodup
    exact hnodup.of_map
  · intro hseparated orders
    rw [history_eq]
    exact (pages_perm hseparated orders hpages).map _

/-! ## Examples -/

section Examples

/-- A seed of ten dollars, at a time of the first day of 2025. -/
def seedRow (id : ℕ) (time : Time) : ActivityRow where
  eventId := ⟨BitVec.ofNat 128 (100 + id)⟩
  accountId := ⟨7⟩
  direction := .credit
  amount := 100000
  currency := "USD"
  entryType := "seed"
  referenceId := none
  occurredAt := 1735689600000000 + time
  id := ⟨BitVec.ofNat 128 id⟩

/-- Two seeds, one second apart. -/
def successiveSeeds : ActivityTable := ⟨[seedRow 1 0, seedRow 2 1000000], by decide⟩

/-- The pages of one row each of two seeds of different times. -/
theorem pages_partition_iff_successive :
    Separated (fun row : ActivityRow => row.occurredAt) (baseQ successiveSeeds ⟨7⟩ {}) 1 ∧
      ∀ orders : ℕ → Order (baseQ successiveSeeds ⟨7⟩ {}),
        (history successiveSeeds ⟨7⟩ {} 1 orders).Perm
          [(seedRow 1 0).item, (seedRow 2 1000000).item] := by
  have hseparated : Separated (fun row : ActivityRow => row.occurredAt)
      (baseQ successiveSeeds ⟨7⟩ {}) 1 := separated_of_nodup_keys (by decide)
  exact ⟨hseparated,
    (pages_partition_iff successiveSeeds ⟨7⟩ {} (by decide : 0 < 1)).mpr hseparated⟩

/-- Two seeds at the same time. -/
def simultaneousSeeds : ActivityTable := ⟨[seedRow 1 0, seedRow 2 0], by decide⟩

/-- The two orders of rows of the same time, one for each page. -/
def alternating (number : ℕ) : Order (baseQ simultaneousSeeds ⟨7⟩ {}) :=
  if number = 1 then ⟨[seedRow 1 0, seedRow 2 0], by decide, by decide⟩
  else ⟨[seedRow 2 0, seedRow 1 0], by decide, by decide⟩

/-- Both pages contain the first of the seeds, and none contains the second. -/
theorem seeds_repeated :
    history simultaneousSeeds ⟨7⟩ {} 1 alternating = [(seedRow 1 0).item, (seedRow 1 0).item] ∧
      ¬ (history simultaneousSeeds ⟨7⟩ {} 1 alternating).Perm
        ((baseQ simultaneousSeeds ⟨7⟩ {}).map ActivityRow.item) := by
  decide +kernel

end Examples

end MiniWallet

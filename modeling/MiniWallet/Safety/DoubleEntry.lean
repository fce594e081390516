import MiniWallet.Safety.Ownership

/-!
# Double entry over whole runs

In every run the books are kept: there is a journal of double entries that accounts for the tables.
So the ledger falls into pairs of legs, its signed sum is zero, and it only ever grows.
-/

namespace MiniWallet

open Numeric Process System State

variable {sha256 : String → String} {t₀ : Time} {ok : State → Event → Prop} {c c' : Wallet}

/-! ## The books are kept -/

namespace Commits

variable {i : ℕ} {T : Transaction}

/-- Both legs of an entry are among the writes of its transaction. -/
theorem insert_legs (hT : Commits sha256 t₀ ok c i T) {e : Entry Decimal} (he : e ∈ T.entries) :
    .insert (.ledger e.debit) ∈ (c.sess i).writes ∧
      .insert (.ledger e.credit) ∈ (c.sess i).writes := by
  rw [hT.writes]
  cases T <;> simp [Transaction.entries] at he
  all_goals
    subst he
    simp [Transaction.writes]

/-- What a transaction moves is positive once it is stored. -/
theorem positive (hT : Commits sha256 t₀ ok c i T) {e : Entry Decimal} (he : e ∈ T.entries) :
    0 < e.stored.movement.amount := by
  have hchecks := checks_of_inserted hT.run (hT.insert_legs he).1
  simp only [Row.stored, Row.map, Row.failedCheck?] at hchecks
  split at hchecks
  · next hpos => exact e.stored.double.debit_amount ▸ hpos
  · cases hchecks

/-- The deposit that a transaction inserts is new. -/
theorem new_deposit (hT : Commits sha256 t₀ ok c i T) :
    ∀ d ∈ T.deposits, ∀ d' ∈ c.shared.db.deposits, d'.id ≠ d.id := by
  have hnew : ∀ d : Deposit Decimal, .insert (.deposit d) ∈ T.writes →
      ∀ d' ∈ c.shared.db.deposits, d'.id ≠ d.id := by
    intro d hd d' hd' hid
    refine not_mem_keys hT.run (hT.writes ▸ hd) (k := .pkey .deposits d.id)
      (List.mem_cons_self ..) ?_
    obtain ⟨row, hrow, hdep⟩ := List.mem_filterMap.mp hd'
    cases row <;> cases hdep
    rw [← hid]
    exact List.mem_flatMap.mpr ⟨_, hrow, List.mem_cons_self ..⟩
  intro d hd
  cases T with
  | depositRejected d₀ set event | deposited d₀ e set event =>
      obtain rfl := List.mem_singleton.mp hd
      exact hnew d₀ (List.mem_cons_self ..)
  | _ => cases hd

/-- What a transaction refunds is a withdrawal that exists. -/
theorem refunds (hT : Commits sha256 t₀ ok c i T) : ∀ e ∈ T.entries,
    e.movement.kind = .withdrawalReversal → ∃ w ∈ c.shared.db.withdrawals, e.stored.Reverses w := by
  intro e he hkind
  -- only two kinds of transactions write legs of a reversal
  cases hT.justified with
  | seeded _ hkind' =>
      obtain rfl := List.mem_singleton.mp he
      rw [hkind] at hkind'
      cases hkind'
  | transferred _ _ _ hmove | deposited _ _ _ hmove | reserved _ _ _ _ _ hmove =>
      obtain rfl := List.mem_singleton.mp he
      rw [hmove] at hkind
      cases hkind
  -- the owner compensates for the withdrawal that it has created
  | @compensated w _ _ _ howned _ _ _ _ hrev _ =>
      obtain rfl := List.mem_singleton.mp he
      obtain ⟨row, hrow, hres⟩ := known_of_owned hT.run howned
      have hstored : e.stored.Reverses w.stored :=
        ⟨congrArg Movement.stored hrev.1, hrev.2.1, hrev.2.2⟩
      exact ⟨row, hrow, hstored.congr hres⟩
  -- a sweep compensates for a row that it has read again
  | @recoveredCompensated row _ _ _ _ _ hrow _ hrev _ _ =>
      obtain rfl := List.mem_singleton.mp he
      have hstored : e.stored.Reverses row.loaded.stored :=
        ⟨congrArg Movement.stored hrev.1, hrev.2.1, hrev.2.2⟩
      refine ⟨row, (reread_current hT.run hrow).2, hstored.congr ?_⟩
      simp [Withdrawal.reservation, Withdrawal.map]
  | _ => cases he

/-- A transaction that is committed fits the books. -/
theorem postable (hT : Commits sha256 t₀ ok c i T) : Postable c.shared.db (c.sess i) T where
  justified := hT.justified
  positive := fun _ he => hT.positive he
  fresh := fun id hid => fresh_of_drawn hT.run (hT.justified.drawn id hid)
  deposits := hT.new_deposit
  unique := withdrawal_unique hT.run
  refunds := hT.refunds

end Commits

/-- In every run there is a journal that accounts for the tables. -/
theorem books_kept (h : WalletRun sha256 t₀ ok c) : ∃ js, Books c.shared.db js := by
  refine database_invariant (P := fun db => ∃ js, Books db js) ⟨[], books_migrated t₀⟩ ?_ h
  rintro c i T hT ⟨js, hjs⟩
  exact ⟨_, hjs.post hT.postable⟩

/-! ## The ledger only grows -/

/-- A later ledger ends with the earlier one: no row of it is changed or removed. -/
theorem ledger_suffix (h : WalletRun sha256 t₀ ok c) (hrun : (wallet sha256).Run ok c c') :
    c.shared.db.ledgerEntries <:+ c'.shared.db.ledgerEntries := by
  refine database_monotone (R := fun db db' => db.ledgerEntries <:+ db'.ledgerEntries)
    (fun _ => List.suffix_refl _) (fun h h' => h.trans h') (fun {c i T} _ => ?_) h hrun
  rw [Database.ledgerEntries_applyAll]
  exact List.suffix_append ..

/-! ## Pairs of legs -/

/-- The two legs are one debit and one credit of the same positive amount and currency. -/
structure Paired (d k : LedgerEntry Ticks) : Prop where
  debit : d.direction = .debit
  credit : k.direction = .credit
  amount : d.amount = k.amount
  positive : 0 < d.amount
  currency : d.currency = k.currency

/-- The ledger falls into pairs of legs, one pair for each transaction identifier. -/
def Database.DoubleEntry (db : Database) : Prop :=
  ∀ l ∈ db.ledgerEntries, ∃ d k, Paired d k ∧
    (db.ledgerEntries.filter (·.transactionId = l.transactionId)).Perm [d, k]

/-- The legs with the identifier of an entry, in a journal without duplicate identifiers. -/
theorem legs_filter_transactionId {js : List (Entry Ticks)}
    (hids : (js.map Entry.transactionId).Nodup) {e : Entry Ticks} (he : e ∈ js) :
    (js.flatMap Entry.legs).filter (·.transactionId = e.transactionId) = e.legs := by
  -- an entry contributes all of its legs or none
  have hsame : ∀ e' : Entry Ticks, e'.legs.filter (·.transactionId = e.transactionId) =
      if e'.transactionId = e.transactionId then e'.legs else [] := by
    intro e'
    split
    · next h =>
        refine List.filter_eq_self.mpr fun l hl => ?_
        simp [Entry.transactionId_of_mem hl, h]
    · next h =>
        refine List.filter_eq_nil_iff.mpr fun l hl => ?_
        simp [Entry.transactionId_of_mem hl, h]
  induction js with
  | nil => cases he
  | cons e' js ih =>
      rw [List.map_cons, List.nodup_cons] at hids
      rw [List.flatMap_cons, List.filter_append, hsame]
      rcases List.mem_cons.mp he with rfl | he
      · rw [if_pos rfl]
        -- no later entry has the identifier of the first one
        have hrest : (js.flatMap Entry.legs).filter (·.transactionId = e.transactionId) = [] := by
          refine List.filter_eq_nil_iff.mpr fun l hl => ?_
          obtain ⟨e₁, he₁, hl⟩ := List.mem_flatMap.mp hl
          rw [Entry.transactionId_of_mem hl, decide_eq_true_eq]
          exact fun heq => hids.1 (heq ▸ List.mem_map_of_mem he₁)
        rw [hrest, List.append_nil]
      · have hne : e'.transactionId ≠ e.transactionId :=
          fun heq => hids.1 (heq ▸ List.mem_map_of_mem he)
        rw [if_neg hne, List.nil_append]
        exact ih hids.2 he

/-- The two legs of an entry of the books are a pair. -/
theorem Books.paired {db : Database} {js : List (Entry Ticks)} (h : Books db js) {e : Entry Ticks}
    (he : e ∈ js) : Paired e.debit e.credit where
  debit := e.double.debit_direction
  credit := e.double.credit_direction
  amount := e.double.debit_amount.trans e.double.credit_amount.symm
  positive := e.double.debit_amount ▸ h.positive e he
  currency := e.double.debit_currency.trans e.double.credit_currency.symm

/-- A ledger that is accounted for falls into pairs. -/
theorem Books.doubleEntry {db : Database} {js : List (Entry Ticks)} (h : Books db js) :
    db.DoubleEntry := by
  intro l hl
  obtain ⟨e, he, hle⟩ := List.mem_flatMap.mp (h.ledger.mem_iff.mp hl)
  refine ⟨e.debit, e.credit, h.paired he, ?_⟩
  rw [Entry.transactionId_of_mem hle]
  refine (h.ledger.filter _).trans ?_
  rw [legs_filter_transactionId h.transactionIds he]
  rfl

/-- Double entry over whole runs: in every reachable state the ledger falls into pairs of legs and
its signed sum is zero, and no later step changes or removes a row of it. -/
theorem ledger_double_entry (h : Reaches sha256 c) :
    c.shared.db.DoubleEntry ∧ (c.shared.db.ledgerEntries.map LedgerEntry.signed).sum = 0 ∧
      ∀ c', (wallet sha256).Run anyStep c c' →
        c.shared.db.ledgerEntries <:+ c'.shared.db.ledgerEntries := by
  obtain ⟨t₀, h⟩ := h
  obtain ⟨js, hjs⟩ := books_kept h
  refine ⟨hjs.doubleEntry, ?_, fun c' hrun => ledger_suffix h hrun⟩
  rw [(hjs.ledger.map _).sum_eq, sum_signed_legs]

/-- A user opens an account, which gets the identifier `1`, and it is seeded with 100 dollars. -/
def seededSchedule : Schedule :=
  [.spawn (.request (.openAccount ⟨1000⟩))] ++ steps 0 9 ++
    [.spawn (.request (.seed ⟨⟨1⟩, ⟨false, 100, 0⟩, "seed", ⟨1000⟩⟩))] ++ steps 1 13

/-- After a seed of 100 dollars the ledger has two legs. -/
theorem ledger_double_entry_seeded :
    ∃ c, Reaches Sha256.hexdigest c ∧ c.shared.db.ledgerEntries.length = 2 ∧
      c.shared.db.DoubleEntry ∧ (c.shared.db.ledgerEntries.map LedgerEntry.signed).sum = 0 := by
  obtain ⟨c, hc, hlen⟩ := reaches_of_played
    (P := fun c => c.shared.db.ledgerEntries.length = 2)
    (show (played anyStep seededSchedule).any _ = true by decide +kernel)
  exact ⟨c, hc, hlen, (ledger_double_entry hc).1, (ledger_double_entry hc).2.1⟩

/-- A transfer between the accounts of two users. -/
def transferOf (amount : Decimal) : TransferRequest where
  fromAccountId := ⟨1⟩
  toAccountId := ⟨9⟩
  amount := amount
  idempotencyKey := "transfer"
  actorUserId := some ⟨1000⟩

/-- A second user opens an account, which gets the identifier `9`; then process 3 has committed a
transfer to it, and has not yet told Redis. -/
def transferredSchedule (amount : Decimal) : Schedule :=
  seededSchedule ++ [.spawn (.request (.openAccount ⟨1001⟩))] ++ steps 2 9 ++
    [.spawn (.request (.transfer (transferOf amount)))] ++ steps 3 17

end MiniWallet

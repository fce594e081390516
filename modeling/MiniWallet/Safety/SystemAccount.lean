import MiniWallet.Safety.Reconciliation

/-!
# The system account

The system account is the counterpart of what crosses the boundary of the system: seeds and deposits
come out of it, and withdrawals go into it until they are refunded. Deposits and withdrawals refuse
it as the account of a user. Transfers and seeds do not.

* `SparesSystem`: the condition on steps, that no transfer with the system account as a party and no
  seed to it is committed.
* `system_mirrors`: under the condition, and while no sweep resolves a withdrawal, the system
  account mirrors the seeds, deposits and withdrawals.
* `system_moved`: without it a transfer to the system account moves it.
-/

namespace MiniWallet

open Numeric Bookkeeping Process System State

variable {sha256 : String → String} {t₀ : Time} {ok : State → Event → Prop} {c : Wallet}

/-! ## The conditions -/

/-- The leg belongs to something that crosses the boundary of the system, if it is on the system
account: not to a transfer, and not to the credit side of a seed. -/
def LedgerEntry.Crosses {α : Type} (l : LedgerEntry α) : Prop :=
  l.accountId = systemAccountId →
    l.entryType ≠ .transfer ∧ (l.entryType = .seed → l.direction = .debit)

/-- Whether a leg crosses the boundary of the system is decidable. -/
instance {α : Type} (l : LedgerEntry α) : Decidable l.Crosses :=
  inferInstanceAs (Decidable (_ → _))

/-- The step does not commit a transfer with the system account as a party, or a seed to it. -/
def SparesSystem (w : State) (l : Event) : Prop :=
  ∀ i ∈ committer l, ∀ row ∈ (w.sess i).inserted, ∀ leg ∈ row.ledger?, leg.Crosses

/-- Whether a commit spares the system account is decidable. -/
instance (w : State) (l : Event) : Decidable (SparesSystem w l) :=
  inferInstanceAs (Decidable (∀ i ∈ committer l, _))

/-- The withdrawal that a sweep reads again in a step, if it does. -/
def rereader : Event → Option UUID
  | .call _ (.lockWithdrawal id) _ => some id
  | _ => none

/-- The step does not belong to the recovery of a withdrawal. -/
def NoRecovery (_ : State) (l : Event) : Prop := rereader l = none

/-- Whether a step is none of a recovery is decidable. -/
instance (w : State) (l : Event) : Decidable (NoRecovery w l) :=
  inferInstanceAs (Decidable (_ = _))

/-- Without recovery, no withdrawal is read again. -/
theorem reread_eq_nil (hok : ∀ w l, ok w l → NoRecovery w l) (h : WalletRun sha256 t₀ ok c) :
    c.shared.reread = [] := by
  refine h.invariant (abides sha256 t₀) (I := fun w => w.shared.reread = []) ?_
  refine { init := rfl, spawn := fun _ hI => hI, call := ?_, stop := fun _ hI _ => hI, env := ?_ }
  · intro c i o r hcall hI
    dsimp only [afterCall, wallet]
    cases o with
    | lockWithdrawal id => exact absurd (hok _ _ hcall.allowed) (by simp [NoRecovery, rereader])
    | breaker _ | cacheSet _ _ | commit | sendWithdrawal _ _ _ | uuid4 => cases r <;> exact hI
    | _ => exact hI
  · rintro c _ - hI ⟨clock, redis, rfl, -⟩
    exact hI

/-- Without recovery, creators have nothing to yield to. -/
theorem handlerYields_of_noRecovery (hok : ∀ w l, ok w l → NoRecovery w l)
    (h : WalletRun sha256 t₀ ok c) : WalletRun sha256 t₀ HandlerYields c :=
  h.imp fun hrun _ i _ id _ _ => by
    rw [reread_eq_nil hok hrun]
    exact List.not_mem_nil

/-! ## The legs of the system account -/

/-- A leg of the ledger crosses the boundary, and a deposit does not credit the system account. -/
def LedgerEntry.Proper {α : Type} (l : LedgerEntry α) : Prop :=
  l.Crosses ∧ (l.entryType = .deposit → l.direction = .credit → l.accountId ≠ systemAccountId)

/-- The legs that a transaction inserts are proper if they cross the boundary. -/
theorem Justified.proper {σ : Session} {T : Transaction} (h : Justified σ T)
    (hcross : ∀ e ∈ T.entries, ∀ l ∈ e.legs, l.Crosses) :
    ∀ e ∈ T.entries, ∀ l ∈ e.legs, l.Proper := by
  intro e he l hl
  refine ⟨hcross e he l hl, fun hdeposit hcredit => ?_⟩
  have hd := e.double
  -- a deposit is credited to the account that was checked
  have htarget : e.movement.kind = .deposit → e.movement.target ≠ systemAccountId := by
    intro hkind
    cases h with
    | deposited _ _ _ hmove _ hsystem =>
        obtain rfl := List.mem_singleton.mp he
        rw [hmove]
        exact hsystem
    | seeded _ hseed =>
        obtain rfl := List.mem_singleton.mp he
        rw [hseed] at hkind
        cases hkind
    | transferred _ _ _ hmove | reserved _ _ _ _ _ hmove =>
        obtain rfl := List.mem_singleton.mp he
        rw [hmove] at hkind
        cases hkind
    | compensated _ _ _ _ _ hrev | recoveredCompensated _ _ _ hrev =>
        obtain rfl := List.mem_singleton.mp he
        rw [hrev.1] at hkind
        cases hkind
    | _ => cases he
  simp only [Entry.legs, List.mem_cons, List.not_mem_nil, or_false] at hl
  rcases hl with rfl | rfl
  · rw [hd.debit_direction] at hcredit
    cases hcredit
  · rw [hd.credit_account]
    exact htarget (hd.credit_kind ▸ hdeposit)

/-- Under the condition, the legs that a transaction inserts cross the boundary. -/
theorem Commits.crosses {i : ℕ} {T : Transaction} (hT : Commits sha256 t₀ ok c i T)
    (hok : ∀ w l, ok w l → SparesSystem w l) :
    ∀ e ∈ T.entries, ∀ l ∈ e.legs, l.Crosses := by
  intro e he l hl
  have hspares := hok _ _ hT.allowed i rfl (.ledger l) ?_ l rfl
  · exact hspares
  · rw [Session.inserted, hT.writes, List.mem_filterMap]
    refine ⟨.insert (.ledger l), ?_, rfl⟩
    simp only [Entry.legs, List.mem_cons, List.not_mem_nil, or_false] at hl
    cases T with
    | seeded | transferred | deposited | reserved | compensated =>
        obtain rfl := List.mem_singleton.mp he
        rcases hl with rfl | rfl <;> simp [Transaction.writes]
    | _ => cases he

/-- Under the condition, every leg of the ledger is proper. -/
theorem ledger_proper (hok : ∀ w l, ok w l → SparesSystem w l) (h : WalletRun sha256 t₀ ok c) :
    ∀ l ∈ c.shared.db.ledgerEntries, l.Proper := by
  refine database_invariant (P := fun db => ∀ l ∈ db.ledgerEntries, l.Proper)
    (fun l hl => nomatch hl) ?_ h
  intro c i T hT hlegs l hl
  rw [(Database.ledgerEntries_post _ T).mem_iff, List.mem_append, List.mem_flatMap] at hl
  rcases hl with ⟨e, he, hl⟩ | hl
  · have hproper := hT.justified.proper (hT.crosses hok) e he
    simp only [Entry.legs, List.mem_cons, List.not_mem_nil, or_false] at hl hproper
    rcases hl with rfl | rfl
    · exact hproper _ (.inl rfl)
    · exact hproper _ (.inr rfl)
  · exact hlegs l hl

/-- In books with proper legs, no transfer has the system account as a party, and seeds and deposits
go to the accounts of users. -/
theorem Books.proper {db : Database} {js : List (Entry Ticks)} (h : Books db js)
    (hproper : ∀ l ∈ db.ledgerEntries, l.Proper) {e : Entry Ticks} (he : e ∈ js) :
    (e.movement.kind = .transfer →
        e.movement.source ≠ systemAccountId ∧ e.movement.target ≠ systemAccountId) ∧
      (e.movement.kind = .seed ∨ e.movement.kind = .deposit →
        e.movement.target ≠ systemAccountId) := by
  have hd := e.double
  -- both legs are proper, and they have the accounts of the movement
  have hdebit := hproper _ (h.mem_ledger he (l := e.debit) (by simp [Entry.legs]))
  have hcredit := hproper _ (h.mem_ledger he (l := e.credit) (by simp [Entry.legs]))
  refine ⟨fun hkind => ⟨fun hsystem => ?_, fun hsystem => ?_⟩, ?_⟩
  · exact (hdebit.1 (hd.debit_account.trans hsystem)).1 (hd.debit_kind.trans hkind)
  · exact (hcredit.1 (hd.credit_account.trans hsystem)).1 (hd.credit_kind.trans hkind)
  · rintro (hkind | hkind) hsystem
    · -- a credit on the system account is no leg of a seed
      have hdirection :=
        (hcredit.1 (hd.credit_account.trans hsystem)).2 (hd.credit_kind.trans hkind)
      rw [hd.credit_direction] at hdirection
      cases hdirection
    · exact hcredit.2 (hd.credit_kind.trans hkind) hd.credit_direction
        (hd.credit_account.trans hsystem)

/-! ## What each kind of movement contributes -/

section Kinds

variable {js : List (Entry Ticks)} {kind : EntryType} {a : UUID}

/-- The sum of the movements of one kind. -/
def kindTotal (js : List (Entry Ticks)) (kind : EntryType) : Ticks :=
  ((movements js kind).map fun m => m.amount).sum

/-- The sum of the effects of some movements, if each of them has the given one. -/
theorem kindBalance_of_effect {f : Movement Ticks → Ticks}
    (h : ∀ m ∈ movements js kind, m.effect a = f m) :
    kindBalance js kind a = ((movements js kind).map f).sum := by
  rw [kindBalance, balance, List.map_map]
  exact congrArg List.sum (List.map_congr_left h)

/-- Movements that do not touch an account contribute nothing. -/
theorem kindBalance_eq_zero (h : ∀ m ∈ movements js kind, m.source ≠ a ∧ m.target ≠ a) :
    kindBalance js kind a = 0 := by
  rw [kindBalance_of_effect (f := fun _ => 0) fun m hm => ?_]
  · simp
  · simp [Posting.effect, (h m hm).1, (h m hm).2]

/-- Movements out of an account. -/
theorem kindBalance_outflow (h : ∀ m ∈ movements js kind, m.source = a ∧ m.target ≠ a) :
    kindBalance js kind a = -kindTotal js kind := by
  rw [kindBalance_of_effect (f := fun m => -m.amount) fun m hm => ?_]
  · rw [kindTotal, List.sum_neg, List.map_map]
    rfl
  · simp [Posting.effect, (h m hm).1, (h m hm).2]

/-- Movements into an account. -/
theorem kindBalance_inflow (h : ∀ m ∈ movements js kind, m.source ≠ a ∧ m.target = a) :
    kindBalance js kind a = kindTotal js kind := by
  rw [kindBalance_of_effect (f := fun m => m.amount) fun m hm => ?_]
  · rfl
  · simp [Posting.effect, (h m hm).1, (h m hm).2]

/-- The sum of the movements that account for the rows of a table. -/
theorem kindTotal_rows {β : Type} {rows : List β} {move : β → Movement Ticks}
    (h : (movements js kind).Perm (rows.map move)) :
    kindTotal js kind = (rows.map fun b => (move b).amount).sum := by
  rw [kindTotal, (h.map _).sum_eq, List.map_map]
  rfl

/-- A movement of one kind belongs to an entry. -/
theorem exists_of_mem_movements {m : Movement Ticks} (hm : m ∈ movements js kind) :
    ∃ e ∈ js, e.movement = m ∧ m.kind = kind := by
  obtain ⟨hm, hkind⟩ := List.mem_filter.mp hm
  obtain ⟨e, he, rfl⟩ := List.mem_map.mp hm
  exact ⟨e, he, rfl, by simpa using hkind⟩

end Kinds

/-! ## The equation -/

namespace Database

variable (db : Database)

/-- The sum of all seeds. -/
def totalSeeds : Ticks :=
  ((db.ledgerEntries.filter fun l => l.entryType = .seed ∧ l.direction = .credit).map
    (·.amount)).sum

/-- The sum of all completed deposits. -/
def totalDeposits : Ticks := ((db.deposits.filter (·.status = .completed)).map (·.amount)).sum

/-- The sum of all withdrawals that have not failed. -/
def totalWithdrawals : Ticks := ((db.withdrawals.filter (·.status ≠ .failed)).map (·.amount)).sum

/-- The system account mirrors what has crossed the boundary of the system. -/
def SystemMirrors : Prop :=
  -db.getBalance systemAccountId = db.totalSeeds + db.totalDeposits - db.totalWithdrawals

/-- Whether the system account mirrors the other ones is decidable. -/
instance : Decidable db.SystemMirrors := inferInstanceAs (Decidable (_ = _))

end Database

/-- The seeds of the books are the credit legs of seeds. -/
theorem Books.totalSeeds {db : Database} {js : List (Entry Ticks)} (h : Books db js) :
    kindTotal js .seed = db.totalSeeds := by
  rw [Database.totalSeeds, ((h.ledger.filter _).map _).sum_eq, kindTotal]
  clear h
  induction js with
  | nil => rfl
  | cons e js ih =>
      have hd := e.double
      rw [List.flatMap_cons, List.filter_append, List.map_append, List.sum_append, ← ih]
      by_cases hkind : e.movement.kind = .seed <;>
        simp [movements, Entry.legs, hkind, hd.debit_kind, hd.credit_kind, hd.debit_direction,
          hd.credit_direction, hd.credit_amount]

/-- Withdrawals that have not failed are all withdrawals but the failed ones. -/
theorem Database.totalWithdrawals_eq (db : Database) :
    db.totalWithdrawals = (db.withdrawals.map (·.amount)).sum -
      ((db.withdrawals.filter (·.status = .failed)).map (·.amount)).sum := by
  have hsplit := sum_filter_split db.withdrawals (fun w => w.status = .failed) (fun _ => True)
    (·.amount)
  simp only [and_true, decide_true, List.filter_true] at hsplit
  rw [Database.totalWithdrawals, hsplit]
  abel

/-- In every run without recovery that commits no transfer with the system account as a party and no
seed to it, the system account mirrors what has crossed the boundary of the system. -/
theorem system_mirrors
    (h : ReachesUnder sha256 (fun w l => NoRecovery w l ∧ SparesSystem w l) c) :
    c.shared.db.SystemMirrors := by
  obtain ⟨t₀, h⟩ := h
  have hlate := noLateWrite_of_handlerYields (handlerYields_of_noRecovery (fun _ _ h => h.1) h)
  obtain ⟨js, hjs⟩ := books_kept h
  -- under the condition no transfer has the system account as a party, and no seed goes to it
  have hproper {e : Entry Ticks} (he : e ∈ js) :=
    hjs.proper (ledger_proper (fun _ _ h => h.2) h) he
  -- seeds and deposits leave the system account
  have hseeds : kindBalance js .seed systemAccountId = -c.shared.db.totalSeeds := by
    rw [← hjs.totalSeeds]
    refine kindBalance_outflow fun m hm => ?_
    obtain ⟨e, he, rfl, hkind⟩ := exists_of_mem_movements hm
    exact ⟨(hjs.seeds e he hkind).1, (hproper he).2 (.inl hkind)⟩
  have hdeposits : kindBalance js .deposit systemAccountId = -c.shared.db.totalDeposits := by
    have htotal : kindTotal js .deposit = c.shared.db.totalDeposits := kindTotal_rows hjs.deposits
    rw [← htotal]
    refine kindBalance_outflow fun m hm => ?_
    obtain ⟨d, -, rfl⟩ := List.mem_map.mp (hjs.deposits.mem_iff.mp hm)
    obtain ⟨e, he, hmove, hkind⟩ := exists_of_mem_movements hm
    exact ⟨rfl, hmove ▸ (hproper he).2 (.inr (hmove ▸ hkind))⟩
  have htransfers : kindBalance js .transfer systemAccountId = 0 := by
    refine kindBalance_eq_zero fun m hm => ?_
    obtain ⟨e, he, rfl, hkind⟩ := exists_of_mem_movements hm
    exact (hproper he).1 hkind
  -- reservations come in, and refunds go out again
  have hreserved : kindBalance js .withdrawal systemAccountId =
      (c.shared.db.withdrawals.map (·.amount)).sum := by
    have htotal : kindTotal js .withdrawal = (c.shared.db.withdrawals.map (·.amount)).sum :=
      kindTotal_rows hjs.reservations
    rw [← htotal]
    refine kindBalance_inflow fun m hm => ?_
    obtain ⟨w, hw, rfl⟩ := List.mem_map.mp (hjs.reservations.mem_iff.mp hm)
    exact ⟨hjs.accounts w hw, rfl⟩
  have hrefunded : kindBalance js .withdrawalReversal systemAccountId =
      -((c.shared.db.withdrawals.filter (·.status = .failed)).map (·.amount)).sum := by
    -- every withdrawal that has failed was refunded once
    have hperm := reversals_perm hlate hjs
    have htotal : kindTotal js .withdrawalReversal =
        ((c.shared.db.withdrawals.filter (·.status = .failed)).map (·.amount)).sum :=
      kindTotal_rows hperm
    rw [← htotal]
    refine kindBalance_outflow fun m hm => ?_
    obtain ⟨w, hw, rfl⟩ := List.mem_map.mp (hperm.mem_iff.mp hm)
    exact ⟨rfl, hjs.accounts w (List.mem_of_mem_filter hw)⟩
  rw [Database.SystemMirrors, getBalance_eq_balance hjs.ledger, balance_by_kind, hseeds, hdeposits,
    htransfers, hreserved, hrefunded, Database.totalWithdrawals_eq]
  abel

/-- An account is seeded with 100 dollars, and 40 of them are on their way out. -/
theorem system_mirrors_submitted :
    ∃ c, ReachesUnder Sha256.hexdigest (fun w l => NoRecovery w l ∧ SparesSystem w l) c ∧
      c.shared.db.getBalance systemAccountId = -600000 ∧ c.shared.db.SystemMirrors := by
  obtain ⟨c, hc, hbalance⟩ := reachesUnder_of_played
    (P := fun c => c.shared.db.getBalance systemAccountId = -600000)
    (show (played (fun w l => NoRecovery w l ∧ SparesSystem w l) submittedSchedule).any _ = true by
      decide +kernel)
  exact ⟨c, hc, hbalance, system_mirrors hc⟩

/-- Without the condition on transfers, a user sends 40 dollars to the system account. -/
theorem system_moved :
    ¬ ∀ c, ReachesUnder Sha256.hexdigest NoRecovery c → c.shared.db.SystemMirrors := by
  intro hall
  obtain ⟨c, hc, hnot⟩ := reachesUnder_of_played (P := fun c => ¬ c.shared.db.SystemMirrors)
    (show (played NoRecovery (seededSchedule ++
      [.spawn (.request (.transfer { transferOf ⟨false, 40, 0⟩ with toAccountId := ⟨0⟩ }))] ++
      steps 2 17)).any _ = true by decide +kernel)
  exact hnot (hall c hc)

end MiniWallet

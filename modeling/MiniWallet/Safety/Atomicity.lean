import MiniWallet.Ledger.Authorship
import MiniWallet.Process.Provenance
import MiniWallet.Safety.Overdraft

/-!
# Requests take effect at once

The wallet refines the abstract bank. Requests and sweeps run at the same time, and each of them may
stop at any point, yet every transaction that is committed does to the tables what one action of the
bank does to the bank, and it is committed only where the bank allows the action.

* `Commits.allows`, `Commits.bank_eq`: a transaction is an action that is allowed, or none.
* `authored`: an open transaction consists of writes that the request of its process may make.
* `WalletHistory`: a run with its history, the actions of its commits.
* `requests_atomic`: the history leads to the bank of the tables. Each action is what the request of
  the process that has committed it asks for, and no key is used twice.
-/

namespace MiniWallet

open Numeric Bookkeeping Process System State

variable {sha256 : String → String} {t₀ : Time} {ok : State → Event → Prop} {c : Wallet} {i : ℕ}
  {T : Transaction}

/-! ## Refunds -/

/-- A withdrawal whose funds have been given back exists, and the key of its reversal is taken. -/
theorem Books.key_of_refunded {db : Database} {js : List (Entry Ticks)} (h : Books db js)
    {id : UUID}
    (hid : db.refunded id = true) :
    (∃ w ∈ db.withdrawals, w.id = id) ∧ .ledgerIdempotencyKey (reversalKey id) ∈ db.keys := by
  obtain ⟨l, hl, hkind⟩ := List.any_eq_true.mp hid
  rw [decide_eq_true_eq] at hkind
  obtain ⟨e, he, hle⟩ := List.mem_flatMap.mp (h.ledger.mem_iff.mp hl)
  rw [Entry.kind_of_mem hle, Entry.reference_of_mem hle] at hkind
  obtain ⟨w, hw, hmove, -, hcredit⟩ := h.reversals e he hkind.1
  obtain rfl : w.id = id := by
    have href := hkind.2
    rw [hmove] at href
    exact Option.some.inj href
  -- the credit leg of the reversal is the one that carries the key
  have hmem : e.credit ∈ db.ledgerEntries := h.mem_ledger he (by simp [Entry.legs])
  obtain ⟨row, hrow, hledger⟩ := List.mem_filterMap.mp hmem
  cases row <;> cases hledger
  exact ⟨⟨w, hw, rfl⟩, List.mem_flatMap.mpr ⟨_, hrow, by simp [Row.keys, hcredit]⟩⟩

/-- A withdrawal is found under its identifier. -/
theorem withdrawalById_eq (h : WalletRun sha256 t₀ ok c) {w : Withdrawal Ticks}
    (hw : w ∈ c.shared.db.withdrawals) : c.shared.db.withdrawalById w.id = some w := by
  cases hfind : c.shared.db.withdrawalById w.id with
  | none =>
      have hnone := List.find?_eq_none.mp hfind w hw
      simp at hnone
  | some w' =>
      have hid : w'.id = w.id := by simpa using List.find?_some hfind
      rw [withdrawal_unique h w' (List.mem_of_find?_eq_some hfind) w hw hid]

namespace Commits

/-! ## An action is allowed -/

/-- The key of a row that a transaction inserts is not used yet. -/
theorem unused (hT : Commits sha256 t₀ ok c i T) {row : Row Decimal} (hrow : .insert row ∈ T.writes)
    {key : UniqueKey} (hkey : key ∈ row.keys) : key ∉ c.shared.db.bank.used :=
  fun hused => not_mem_keys hT.run (hT.writes ▸ hrow) hkey hused.2

/-- An account that a row of the transaction refers to exists. -/
theorem opened (hT : Commits sha256 t₀ ok c i T) (hnone : T.accounts = []) {row : Row Decimal}
    (hrow : .insert row ∈ T.writes) {id : UUID} (hid : id ∈ row.foreignKeys.map Prod.fst) :
    id ∈ c.shared.db.bank.opened := by
  obtain ⟨fk, hfk, rfl⟩ := List.mem_map.mp hid
  have hsome := (refers hT.run i).1 row (hT.writes ▸ hrow) fk hfk
  change fk.1 ∈ (view c.toWorld i).bank.opened at hsome
  rw [view, hT.writes, Database.opened_post, hnone] at hsome
  simpa using hsome

/-- What a transaction refunds is held and has not been refunded. -/
theorem held_of_reverses (hT : Commits sha256 t₀ ok c i T) {e : Entry Decimal} (he : e ∈ T.entries)
    {id : UUID} (hkind : e.movement.kind = .withdrawalReversal)
    (hreference : e.movement.reference = some id)
    (hkey : e.credit.idempotencyKey = some (reversalKey id)) :
    c.shared.db.bank.held id =
      some ⟨e.stored.movement.target, e.stored.movement.amount, false⟩ := by
  obtain ⟨js, hjs⟩ := books_kept hT.run
  obtain ⟨w, hw, hrev⟩ := hT.refunds e he hkind
  obtain rfl : w.id = id := by
    have href : e.stored.movement.reference = some w.id := by rw [hrev.1]; rfl
    exact Option.some.inj (href.symm.trans hreference)
  have hfresh : c.shared.db.refunded w.id = false := by
    refine Bool.eq_false_iff.mpr fun hrefunded => ?_
    -- the key of the reversal would be taken already
    have hinsert : .insert (.ledger e.credit) ∈ T.writes := hT.writes ▸ (hT.insert_legs he).2
    exact not_mem_keys hT.run (hT.writes ▸ hinsert) (by simp [Row.keys, hkey])
      (hjs.key_of_refunded hrefunded).2
  simp only [Database.bank, withdrawalById_eq hT.run hw, Option.map_some, hfresh]
  rw [hrev.1]
  rfl

/-- The withdrawal that a transaction inserts is not held yet. -/
theorem held_of_new (hT : Commits sha256 t₀ ok c i T) {w : Withdrawal Decimal}
    (hw : w ∈ T.withdrawals) : c.shared.db.bank.held w.id = none := by
  have hnone : c.shared.db.withdrawalById w.id = none := by
    refine List.find?_eq_none.mpr fun row hrow => ?_
    simpa using hT.new_withdrawal hw row hrow
  simp [Database.bank, hnone]

/-- A new account has a new identifier, and its user has no account yet. -/
theorem allows_opened {a : Account} {event : OutboxRow} {userId : UUID}
    (hT : Commits sha256 t₀ ok c i (.opened a event)) (huser : a.userId = some userId) :
    c.shared.db.bank.Allows systemAccountId (.openAccount userId a.id) := by
  have hrow : .insert (.account a) ∈ (Transaction.opened a event).writes := by
    simp [Transaction.writes]
  refine ⟨fun hopened => ?_, Option.eq_none_iff_forall_not_mem.mpr fun id hid => ?_⟩
  · -- the identifier of the account would be taken
    obtain ⟨a', ha', hid⟩ := Database.accountById_isSome _ |>.mp hopened
    obtain ⟨row, hmem, haccount⟩ := List.mem_filterMap.mp ha'
    cases row <;> cases haccount
    refine not_mem_keys hT.run (hT.writes ▸ hrow) (k := .pkey .accounts a.id)
      (by simp [Row.keys]) (List.mem_flatMap.mpr ⟨_, hmem, ?_⟩)
    simp [Row.keys, hid]
  · -- the user would have an account
    obtain ⟨a', ha', -⟩ := Option.map_eq_some_iff.mp hid
    have howner : a'.userId = some userId := by simpa using List.find?_some ha'
    obtain ⟨row, hmem, haccount⟩ := List.mem_filterMap.mp (List.mem_of_find?_eq_some ha')
    cases row <;> cases haccount
    refine not_mem_keys hT.run (hT.writes ▸ hrow) (k := .accountUser userId)
      (by simp [Row.keys, huser]) (List.mem_flatMap.mpr ⟨_, hmem, ?_⟩)
    simp [Row.keys, howner]

/-- A seed comes under a new key, for an account that exists. -/
theorem allows_seeded {e : Entry Decimal} {event : OutboxRow} {key : String}
    (hT : Commits sha256 t₀ ok c i (.seeded e event)) (hkey : e.credit.idempotencyKey = some key) :
    c.shared.db.bank.Allows systemAccountId
      (.issue (.ledgerIdempotencyKey key) e.stored.movement.target e.stored.movement.amount) := by
  have hrow : .insert (.ledger e.credit) ∈ (Transaction.seeded e event).writes := by
    simp [Transaction.writes]
  refine ⟨hT.unused hrow (by simp [Row.keys, hkey]), ?_, hT.positive (List.mem_singleton_self e)⟩
  exact hT.opened rfl hrow
    (by simp [Row.foreignKeys, e.double.credit_account, Entry.map, Movement.map])

/-- A transfer comes under a new key, between two accounts, of which the first can afford it. -/
theorem allows_transferred {t : Transfer Decimal} {e : Entry Decimal} {event : OutboxRow}
    (hT : Commits sha256 t₀ ok c i (.transferred t e event)) (hmove : e.movement = t.movement) :
    c.shared.db.bank.Allows systemAccountId (.move (.transferIdempotencyKey t.idempotencyKey)
      t.fromAccountId t.toAccountId t.stored.amount) := by
  have hrow : .insert (.transfer t) ∈ (Transaction.transferred t e event).writes := by
    simp [Transaction.writes]
  have he : e ∈ (Transaction.transferred t e event).entries := List.mem_singleton_self e
  have hstored : e.stored.movement = t.stored.movement := congrArg Movement.stored hmove
  refine ⟨hT.unused hrow (by simp [Row.keys]), ?_, ?_, ?_, ?_, ?_⟩
  · exact hT.opened rfl hrow (by simp [Row.foreignKeys])
  · exact hT.opened rfl hrow (by simp [Row.foreignKeys])
  · -- the table refuses a transfer to the account that it is from
    have hchecks := checks_of_inserted hT.run (hT.writes ▸ hrow)
    intro heq
    simp [Row.stored, Row.map, Row.failedCheck?, Transfer.map, heq] at hchecks
  · have hpos := hT.positive he
    rwa [hstored] at hpos
  · have hcover := hT.affordable e he
    rwa [hstored] at hcover

/-- A deposit comes under a new reference, for an account that exists. -/
theorem allows_deposited {d : Deposit Decimal} {e : Entry Decimal} {set : DepositSet}
    {event : OutboxRow} (hT : Commits sha256 t₀ ok c i (.deposited d e set event))
    (hmove : e.movement = d.movement) :
    c.shared.db.bank.Allows systemAccountId
      (.issue (.depositExternalReference d.externalReference) d.accountId d.stored.amount) := by
  have hrow : .insert (.deposit d) ∈ (Transaction.deposited d e set event).writes := by
    simp [Transaction.writes]
  have hentry : .insert (.ledger e.credit) ∈ (Transaction.deposited d e set event).writes := by
    simp [Transaction.writes]
  have he : e ∈ (Transaction.deposited d e set event).entries := List.mem_singleton_self e
  have hstored : e.stored.movement = d.stored.movement := congrArg Movement.stored hmove
  have hcredit : e.credit.accountId = d.accountId := by
    rw [e.double.credit_account, hmove]
    rfl
  refine ⟨hT.unused hrow (by simp [Row.keys]), ?_, ?_⟩
  · exact hT.opened rfl hentry (by simp [Row.foreignKeys, hcredit])
  · have hpos := hT.positive he
    rwa [hstored] at hpos

/-- A withdrawal comes under a new key, from an account of a user that can afford it. -/
theorem allows_reserved {w : Withdrawal Decimal} {e : Entry Decimal} {event : OutboxRow}
    (hT : Commits sha256 t₀ ok c i (.reserved w e event)) (haccount : w.accountId ≠ systemAccountId)
    (hmove : e.movement = w.reservation) :
    c.shared.db.bank.Allows systemAccountId (.reserve (.withdrawalIdempotencyKey w.idempotencyKey)
      w.id w.accountId w.stored.amount) := by
  have hrow : .insert (.withdrawal w) ∈ (Transaction.reserved w e event).writes := by
    simp [Transaction.writes]
  have he : e ∈ (Transaction.reserved w e event).entries := List.mem_singleton_self e
  have hstored : e.stored.movement = w.stored.reservation := congrArg Movement.stored hmove
  refine ⟨hT.unused hrow (by simp [Row.keys]), hT.held_of_new (List.mem_singleton_self w), ?_,
    haccount, ?_, ?_⟩
  · exact hT.opened rfl hrow (by simp [Row.foreignKeys])
  · have hpos := hT.positive he
    rwa [hstored] at hpos
  · have hcover := hT.affordable e he
    rw [hstored] at hcover
    exact hcover.resolve_left haccount

/-- A refund comes under the key of a withdrawal that has not been refunded. -/
theorem allows_compensated {w : Withdrawal Decimal} {before : List WithdrawalSet}
    {e : Entry Decimal} {set : WithdrawalSet} {event : OutboxRow}
    (hT : Commits sha256 t₀ ok c i (.compensated w.id before e set event)) (hrev : e.Reverses w) :
    c.shared.db.bank.Allows systemAccountId (.refund (.ledgerIdempotencyKey (reversalKey w.id)) w.id
      e.stored.movement.target e.stored.movement.amount) := by
  have hrow : .insert (.ledger e.credit) ∈
    (Transaction.compensated w.id before e set event).writes := by
    simp [Transaction.writes]
  refine ⟨hT.unused hrow (by simp [Row.keys, hrev.2.2]), ?_⟩
  exact hT.held_of_reverses (List.mem_singleton_self e) (by rw [hrev.1]; rfl) (by rw [hrev.1]; rfl)
    hrev.2.2

/-- The action of a transaction is allowed when the transaction commits. -/
theorem allows (hT : Commits sha256 t₀ ok c i T) {action : BankAction}
    (haction : T.action = some action) : c.shared.db.bank.Allows systemAccountId action := by
  cases hT.justified with
  | @opened a event _ huser =>
      obtain ⟨userId, huser⟩ := Option.isSome_iff_exists.mp huser
      simp only [Transaction.action, huser, Option.map_some, Option.some.injEq] at haction
      subst haction
      exact hT.allows_opened huser
  | @seeded e event _ _ _ _ _ hcredit =>
      obtain ⟨key, hkey⟩ := Option.isSome_iff_exists.mp hcredit
      simp only [Transaction.action, hkey, Option.map_some, Option.some.injEq] at haction
      subst haction
      exact hT.allows_seeded hkey
  | @transferFailed t event =>
      cases haction
      have hrow : .insert (.transfer t) ∈ (Transaction.transferFailed t event).writes := by
        simp [Transaction.writes]
      exact hT.unused hrow (by simp [Row.keys])
  | @depositRejected d set event =>
      cases haction
      have hrow : .insert (.deposit d) ∈ (Transaction.depositRejected d set event).writes := by
        simp [Transaction.writes]
      exact hT.unused hrow (by simp [Row.keys])
  | transferred _ _ _ hmove =>
      cases haction
      exact hT.allows_transferred hmove
  | deposited _ _ _ hmove =>
      cases haction
      exact hT.allows_deposited hmove
  | reserved _ _ _ _ haccount hmove =>
      cases haction
      exact hT.allows_reserved haccount hmove
  | compensated _ _ _ _ _ hrev =>
      cases haction
      exact hT.allows_compensated hrev
  | @recoveredCompensated row before e set event _ _ _ hrev =>
      cases haction
      exact hT.allows_compensated (w := row.loaded) hrev
  -- the other transactions do nothing to the bank
  | _ => cases haction

/-! ## What an action does -/

/-- A refund marks the payout that it is for. -/
theorem held_eq_of_reverses {id : UUID} {before : List WithdrawalSet} {e : Entry Decimal}
    {set : WithdrawalSet} {event : OutboxRow}
    (hT : Commits sha256 t₀ ok c i (.compensated id before e set event))
    (hkind : e.movement.kind = .withdrawalReversal) (hreference : e.movement.reference = some id)
    (hkey : e.credit.idempotencyKey = some (reversalKey id)) (id' : UUID) :
    (c.shared.db.applyAll (Transaction.compensated id before e set event).writes).bank.held id' =
      (c.shared.db.bank.perform systemAccountId (.refund (.ledgerIdempotencyKey (reversalKey id)) id
        e.stored.movement.target e.stored.movement.amount)).held id' := by
  -- the payout is held in the state before, under the same account and amount
  have hheld := hT.held_of_reverses (List.mem_singleton_self e) hkind hreference hkey
  have hrefunds : (Transaction.compensated id before e set event).refunds id' =
    decide (id = id') := by
    simp [Transaction.refunds, Transaction.entries, hkind, hreference]
  rw [Database.held_post, hrefunds]
  change _ = Function.update c.shared.db.bank.held id (some _) id'
  -- the other payouts stay as they are
  by_cases hid : id = id'
  · subst hid
    obtain ⟨w, hw, heq⟩ := Option.map_eq_some_iff.mp hheld
    simp only [Hold.mk.injEq] at heq
    simp [Transaction.withdrawals, hw, heq]
  · rw [Function.update_of_ne (Ne.symm hid)]
    simp [Transaction.withdrawals, hid, Database.bank]

/-- A transaction does to the payouts what its action does. -/
theorem held_eq (hT : Commits sha256 t₀ ok c i T) (id : UUID) :
    (c.shared.db.applyAll T.writes).bank.held id =
      (c.shared.db.bank.after systemAccountId T.action).held id := by
  have hsame : T.withdrawals = [] → T.refunds id = false →
      (c.shared.db.applyAll T.writes).bank.held id = c.shared.db.bank.held id := by
    intro hnone hrefunds
    rw [Database.held_post, hnone, hrefunds]
    rfl
  cases hT.justified with
  | @seeded e event _ hkind _ _ _ hcredit =>
      obtain ⟨key, hkey⟩ := Option.isSome_iff_exists.mp hcredit
      refine (hsame rfl (by simp [Transaction.refunds, Transaction.entries, hkind])).trans ?_
      simp [Transaction.action, hkey, Bank.after, Bank.perform, Bank.heldAfter]
  | @opened a event _ huser =>
      obtain ⟨userId, huser⟩ := Option.isSome_iff_exists.mp huser
      refine (hsame rfl rfl).trans ?_
      simp [Transaction.action, huser, Bank.after, Bank.perform, Bank.heldAfter]
  | transferred _ _ _ hmove | deposited _ _ _ hmove =>
      refine (hsame rfl ?_).trans rfl
      simp [Transaction.refunds, Transaction.entries, hmove, Transfer.movement, Deposit.movement]
  | @reserved w e event _ _ _ _ _ hmove =>
      have hrefunds : (Transaction.reserved w e event).refunds id = false := by
        simp [Transaction.refunds, Transaction.entries, hmove, Withdrawal.reservation]
      have hnew := hT.held_of_new (List.mem_singleton_self w)
      rw [Database.held_post, hrefunds]
      change _ = Function.update c.shared.db.bank.held w.id
        (some ⟨w.accountId, w.stored.amount, false⟩) id
      by_cases hid : w.id = id
      · -- nothing refers to the new withdrawal yet
        subst hid
        obtain ⟨js, hjs⟩ := books_kept hT.run
        have hfresh : c.shared.db.refunded w.id = false := by
          refine Bool.eq_false_iff.mpr fun hrefunded => ?_
          obtain ⟨row, hrow, hid⟩ := (hjs.key_of_refunded hrefunded).1
          exact hT.new_withdrawal (List.mem_singleton_self w) row hrow hid
        simp [Transaction.withdrawals, hfresh, Withdrawal.map]
      · rw [Function.update_of_ne (Ne.symm hid)]
        simp [Transaction.withdrawals, hid, Database.bank]
  | @compensated w e set event _ _ _ _ _ hrev =>
      exact hT.held_eq_of_reverses (by rw [hrev.1]; rfl) (by rw [hrev.1]; rfl) hrev.2.2 id
  | @recoveredCompensated row before e set event _ _ _ hrev =>
      exact hT.held_eq_of_reverses (by rw [hrev.1]; rfl) (by rw [hrev.1]; rfl) hrev.2.2 id
  | _ => exact hsame rfl rfl

/-- A transaction does to the bank of the tables what its action does. -/
theorem bank_eq (hT : Commits sha256 t₀ ok c i T) :
    (c.shared.db.applyAll T.writes).bank = c.shared.db.bank.after systemAccountId T.action := by
  have hj := hT.justified
  -- the bank has five parts
  apply Bank.ext
  · rw [Database.opened_post, hj.opens]
  · funext userId
    rw [Database.owned_post, hj.owners]
  · funext a
    have hposting := hj.posting
    change (c.shared.db.applyAll T.writes).getBalance a = _
    rw [Database.getBalance_post, hposting, Bank.after_balance]
    cases T.action.bind (Bank.Action.posting? systemAccountId) with
    | none => rfl
    | some p => simp [balance]; rfl
  · rw [Database.used_post, Bank.after_used]
    refine congrArg (· ∪ _) ?_
    ext key
    exact hj.key
  · funext id
    exact hT.held_eq id

end Commits

/-! ## Runs -/

/-- `WalletTale sha256 t₀ ok origin c`: a run of the wallet under `ok` has reached `c`, and process
`i` was started for the request `origin i`. -/
abbrev WalletTale (sha256 : String → String) (t₀ : Time) (ok : State → Event → Prop)
    (origin : ℕ → Option Request) (c : Wallet) : Prop :=
  (wallet sha256).Launched (Request.program sha256) ok (.initial t₀) origin c

/-- What a request owes: its program writes only what the request is about. -/
def authorship (request : Request) : Contract Op Op.Out Exc Session where
  guard := fun o _ => o.Writes request.Authors
  possible := fun _ _ _ => True

/-- Induction over the runs that are told with their requests. -/
theorem tale_invariant {I : (ℕ → Option Request) → State → Prop} {origin : ℕ → Option Request}
    (hI : Launched.Preserves (wallet sha256) (Request.program sha256) authorship ok (.initial t₀) I)
    (h : WalletTale sha256 t₀ ok origin c) : I origin c.toWorld :=
  h.invariant (fun _ _ _ => trivial)
    (fun request => Contract.Safe.of_wp _ _
      ((authors_program request).wp (fun _ _ h => h) _)) hI

variable {origin : ℕ → Option Request}

/-- An open transaction consists of writes that the request of its process may make. -/
theorem authored (h : WalletTale sha256 t₀ ok origin c) {request : Request}
    (horigin : origin i = some request) : ∀ w ∈ (c.sess i).writes, request.Authors w := by
  refine tale_invariant (I := fun origin w => ∀ i request, origin i = some request →
    ∀ wr ∈ (w.sess i).writes, request.Authors wr) ?_ h i request horigin
  refine { init := ?_, spawn := ?_, call := ?_, stop := ?_, env := ?_ }
  · exact fun i request horigin => nomatch horigin
  · intro origin c request hrun hI i request' horigin
    dsimp only at horigin ⊢
    by_cases hi : i = c.size
    · -- a process starts without a transaction
      rw [hi, (hrun.run.fresh (fresh_initial _)).sess_idle c.size le_rfl]
      exact fun wr hwr => nomatch hwr
    · rw [Function.update_of_ne hi] at horigin
      exact hI i request' horigin
  · intro origin c i request o r hdeed hI j request' horigin
    dsimp only [afterCall, wallet]
    by_cases hj : j = i
    · subst hj
      rw [Function.update_self]
      rcases writes_cases hdeed.enabled with hwrites | hwrites | ⟨wr, rfl, -, hwrites⟩
      · rw [hwrites]
        exact fun wr hwr => nomatch hwr
      · rw [hwrites]
        exact hI j request' horigin
      · obtain rfl : request = request' := Option.some.inj (hdeed.origin.symm.trans horigin)
        rw [hwrites, List.forall_mem_append]
        exact ⟨hI j request horigin, List.forall_mem_singleton.mpr hdeed.guard⟩
    · rw [Function.update_of_ne hj]
      exact hI j request' horigin
  · intro origin c i _ hI j request horigin
    dsimp only [afterStop, wallet]
    by_cases hj : j = i
    · subst hj
      rw [Function.update_self]
      exact fun wr hwr => nomatch hwr
    · rw [Function.update_of_ne hj]
      exact hI j request horigin
  · exact fun _ hI _ => hI

/-- `Told origin history b`: the actions of `history` lead to the bank `b`, and each of them is what
the request of its process asks for. -/
structure Told (origin : ℕ → Option Request) (history : List (ℕ × BankAction)) (b : WalletBank) :
    Prop where
  leads : Bank.Leads systemAccountId (history.map Prod.snd) b
  asked : ∀ deed ∈ history, ∃ request, origin deed.1 = some request ∧ request.Asks deed.2

/-- The bank of the migrated tables is the one in which nothing has happened yet. -/
theorem bank_migrated (t₀ : Time) : (Database.migrated t₀).bank = .empty systemAccountId := by
  apply Bank.ext
  · ext id
    simp only [Database.bank, Bank.empty, Set.mem_ofPred_eq, Set.mem_singleton_iff,
      Database.accountById_isSome]
    simp [Database.migrated, Database.accounts, Row.account?, eq_comm]
  · rfl
  · rfl
  · ext key
    simp only [Database.bank, Database.migrated, Database.keys, Bank.empty]
    cases key <;> simp [UniqueKey.OfRequest, Row.keys]
  · rfl

/-- A commit adds the action of its transaction to the history. -/
theorem Told.commit {history : List (ℕ × BankAction)} (hT : Commits sha256 t₀ ok c i T)
    (h : Told origin history c.shared.db.bank) (htale : WalletTale sha256 t₀ ok origin c)
    {request : Request} (horigin : origin i = some request) :
    Told origin (T.action.toList.map (i, ·) ++ history) (c.shared.db.applyAll T.writes).bank where
  leads := by
    rw [hT.bank_eq, List.map_append, List.map_map]
    have hactions : T.action.toList.map (Prod.snd ∘ (i, ·)) = T.action.toList := List.map_id' _
    rw [hactions]
    exact h.leads.after fun action haction => hT.allows haction
  asked := by
    intro deed hdeed
    rcases List.mem_append.mp hdeed with hdeed | hdeed
    · obtain ⟨action, haction, rfl⟩ := List.mem_map.mp hdeed
      refine ⟨request, horigin, Request.asks_of_authors hT.justified (fun w hw => ?_)
        (Option.mem_toList.mp haction)⟩
      exact authored htale horigin w (hT.writes ▸ hw)
    · exact h.asked deed hdeed

/-- Starting a process does not change what its predecessors were asked for. -/
theorem Told.spawn {history : List (ℕ × BankAction)} {b : WalletBank} (h : Told origin history b)
    (htale : WalletTale sha256 t₀ ok origin c) (request : Request) :
    Told (Function.update origin c.size (some request)) history b where
  leads := h.leads
  asked := by
    intro deed hdeed
    obtain ⟨request', horigin, hasks⟩ := h.asked deed hdeed
    have hne : deed.1 ≠ c.size := by
      intro heq
      rw [heq, htale.origin_none le_rfl] at horigin
      cases horigin
    exact ⟨request', (Function.update_of_ne hne _ _).trans horigin, hasks⟩

/-- Nothing has happened at the start. -/
theorem told_initial (t₀ : Time) : Told (fun _ => none) [] (Shared.initial t₀).db.bank where
  leads := by
    change Bank.Leads systemAccountId [] (Database.migrated t₀).bank
    rw [bank_migrated]
    exact .empty
  asked := fun _ hdeed => (List.not_mem_nil hdeed).elim

/-! ## The history of a run -/

/-- `WalletHistory sha256 t₀ ok origin history c`: a run that is told with its requests has reached
`c`, and `history` is what its commits have done to the bank, each action with the process that has
committed it. -/
inductive WalletHistory (sha256 : String → String) (t₀ : Time) (ok : State → Event → Prop) :
    (ℕ → Option Request) → List (ℕ × BankAction) → Wallet → Prop
  | start : WalletHistory sha256 t₀ ok (fun _ => none) [] ((wallet sha256).initial (.initial t₀))
  | spawn {origin : ℕ → Option Request} {history : List (ℕ × BankAction)} {c : Wallet}
      {request : Request} : WalletHistory sha256 t₀ ok origin history c → ok c.toWorld .spawn →
      WalletHistory sha256 t₀ ok (Function.update origin c.size (some request)) history
        (spawned c (request.program sha256))
  /-- Process `i` commits a transaction, and the action of the transaction is its deed. -/
  | commit {origin : ℕ → Option Request} {history : List (ℕ × BankAction)} {c c' : Wallet} {i : ℕ}
      {T : Transaction} : WalletHistory sha256 t₀ ok origin history c → Commits sha256 t₀ ok c i T →
      (wallet sha256).Step c (.call i .commit (.ok ())) c' →
      WalletHistory sha256 t₀ ok origin (T.action.toList.map (i, ·) ++ history) c'
  | step {origin : ℕ → Option Request} {history : List (ℕ × BankAction)} {c c' : Wallet}
      {l : Event} :
      WalletHistory sha256 t₀ ok origin history c → ok c.toWorld l → (wallet sha256).Step c l c' →
      l ≠ .spawn → (∀ i, l ≠ .call i .commit (.ok ())) →
        WalletHistory sha256 t₀ ok origin history c'

namespace WalletHistory

variable {history : List (ℕ × BankAction)}

/-- A run with its history is a run with its requests. -/
theorem tale (h : WalletHistory sha256 t₀ ok origin history c) :
    WalletTale sha256 t₀ ok origin c := by
  induction h with
  | start => exact .start
  | @spawn _ _ _ request _ hl ih => exact .spawn ih hl ⟨request, rfl⟩
  | commit _ hT hs ih => exact .step ih hT.allowed hs (by rintro ⟨⟩)
  | step _ hl hs hspawn _ ih => exact .step ih hl hs hspawn

/-- The history of a run leads to the bank of the tables. -/
theorem told (h : WalletHistory sha256 t₀ ok origin history c) :
    Told origin history c.shared.db.bank := by
  induction h with
  | start => exact told_initial t₀
  | @spawn _ _ _ request h _ ih => exact ih.spawn h.tale request
  -- the process that commits was started for a request, which asks for the action
  | commit h hT hs ih =>
      cases hs with
      | call hp _ =>
          obtain ⟨request, horigin, -⟩ := h.tale.wp (fun _ _ _ => trivial) (C := authorship)
            (fun request => (authors_program request).wp (fun _ _ h => h) _) hp
          have hdb := ih.commit hT h.tale horigin
          rwa [← hT.writes] at hdb
  -- no other step changes the tables that the bank is read from
  | @step origin history c c' l _ _ hs hspawn hcommit ih =>
      cases hs with
      | spawn _ => exact absurd rfl hspawn
      | @call i o next r _ _ =>
          dsimp only [System.afterCall, wallet]
          cases o with
          | commit =>
              cases r with
              | ok u => exact absurd rfl (hcommit i)
              | error e => exact ih
          | _ => cases r <;> exact ih
      | stop _ => exact ih
      | env he =>
          obtain ⟨clock, redis, rfl, -⟩ := he
          exact ih

/-- A step of the wallet that starts no process adds at most one action to the history, that of the
process that commits. -/
theorem next (h : WalletHistory sha256 t₀ ok origin history c) {l : Event} (hl : ok c.toWorld l)
    {c' : Wallet} (hs : (wallet sha256).Step c l c') (hspawn : l ≠ .spawn) :
    ∃ recent, WalletHistory sha256 t₀ ok origin (recent ++ history) c' := by
  by_cases hcommit : ∃ i, l = .call i .commit (.ok ())
  · obtain ⟨i, rfl⟩ := hcommit
    have hstep := hs
    cases hs with
    | call hp hr =>
        have hcall : WalletCall sha256 t₀ ok c i .commit (.ok ()) :=
          h.tale.run.call (abides sha256 t₀) hp hr hl
        obtain ⟨T, hwrites, hjustified, hnarrated⟩ := hcall.guard
        exact ⟨_, .commit h ⟨hcall.run, hl, hwrites, hjustified, hnarrated⟩ hstep⟩
  · exact ⟨[], .step h hl hs hspawn fun i heq => hcommit ⟨i, heq⟩⟩

/-- The history of a run goes on with the run. -/
theorem run (h : WalletHistory sha256 t₀ ok origin history c) {c' : Wallet}
    (hrun : (wallet sha256).Run ok c c') :
    ∃ origin' recent, WalletHistory sha256 t₀ ok origin' (recent ++ history) c' := by
  induction hrun with
  | refl => exact ⟨origin, [], h⟩
  | @step c₁ c₂ l _ hl hs ih =>
      obtain ⟨origin₁, recent₁, h₁⟩ := ih
      by_cases hspawn : l = .spawn
      · subst hspawn
        cases hs with
        | spawn hstart =>
            obtain ⟨request, rfl⟩ := hstart
            exact ⟨_, recent₁, .spawn h₁ hl⟩
      · obtain ⟨recent₂, h₂⟩ := h₁.next hl hs hspawn
        refine ⟨origin₁, recent₂ ++ recent₁, ?_⟩
        rwa [List.append_assoc]

end WalletHistory

/-- Every run with its requests has a history. -/
theorem exists_walletHistory (h : WalletTale sha256 t₀ ok origin c) :
    ∃ history, WalletHistory sha256 t₀ ok origin history c := by
  induction h with
  | start => exact ⟨[], .start⟩
  | spawn _ hl _ ih =>
      obtain ⟨history, hhistory⟩ := ih
      exact ⟨history, .spawn hhistory hl⟩
  | step _ hl hs hspawn ih =>
      obtain ⟨history, hhistory⟩ := ih
      obtain ⟨recent, hrecent⟩ := hhistory.next hl hs hspawn
      exact ⟨_, hrecent⟩

/-- Every interleaving of requests, sweeps and crashes has done to the tables what some sequence of
actions of the bank does, one after the other. Each action is done by a commit of the process that
stands beside it and is what the request of this process asks for, no two actions use the same key,
and no action is ever taken back. -/
theorem requests_atomic (h : Reaches sha256 c) :
    ∃ t₀ origin history, WalletHistory sha256 t₀ anyStep origin history c ∧
      Told origin history c.shared.db.bank ∧
      (history.filterMap fun deed => deed.2.key?).Nodup ∧
      ∀ c', (wallet sha256).Run anyStep c c' → ∃ origin' recent,
        WalletHistory sha256 t₀ anyStep origin' (recent ++ history) c' ∧
          Told origin' (recent ++ history) c'.shared.db.bank := by
  obtain ⟨t₀, h⟩ := h
  obtain ⟨origin, htale⟩ := h.launched fun p hp => hp
  obtain ⟨history, hhistory⟩ := exists_walletHistory htale
  refine ⟨t₀, origin, history, hhistory, hhistory.told, ?_, fun c' hrun => ?_⟩
  · have hkeys := hhistory.told.leads.keys_nodup
    rwa [List.filterMap_map] at hkeys
  · obtain ⟨origin', recent, hrecent⟩ := hhistory.run hrun
    exact ⟨origin', recent, hrecent, hrecent.told⟩

/-- Two accounts, a seed and a transfer. -/
theorem requests_atomic_transferred :
    ∃ c, c.shared.db.getBalance ⟨9⟩ = 400000 ∧ ∃ t₀ origin history,
      WalletHistory Sha256.hexdigest t₀ anyStep origin history c ∧
        Told origin history c.shared.db.bank ∧
        (history.filterMap fun deed => deed.2.key?).Nodup := by
  obtain ⟨c, hc, hbal⟩ := reaches_of_played (P := fun c => c.shared.db.getBalance ⟨9⟩ = 400000)
    (show (played anyStep (transferredSchedule ⟨false, 40, 0⟩)).any _ = true by decide +kernel)
  obtain ⟨t₀, origin, history, hhistory, htold, hkeys, -⟩ := requests_atomic hc
  exact ⟨c, hbal, t₀, origin, history, hhistory, htold, hkeys⟩

end MiniWallet

import MiniWallet.Safety.Compensation
import MiniWallet.Safety.Overdraft
import MiniWallet.Safety.TransferReplay

/-!
# A transfer alone

What a transfer does to every table and to every balance if its idempotency key is new. The sender's
balance is compared with the amount as it was requested, and the tables store the amount rounded to
four places.

* `Settled`, `Declined`: what the tables gain if the balance covers the amount and if it does not,
  with everything else as it was.
* `TransferEnds`: how a transfer ends.
* `transfer_settles`: a transfer that runs alone ends so, in every state that the wallet can reach.
-/

namespace MiniWallet

open Numeric Bookkeeping Process System Program

variable {sha256 : String → String} {c : Wallet}

/-! ## What a transfer should do -/

/-- The tables that no transfer touches are the same. -/
structure Database.SameElsewhere (db db' : Database) : Prop where
  accounts : db'.accounts = db.accounts
  deposits : db'.deposits = db.deposits
  withdrawals : db'.withdrawals = db.withdrawals

/-- Between the two states of the tables one completed transfer was made for the request, with its
two legs and one event, and the rounded amount has moved. -/
structure Settled (q : TransferRequest) (db db' : Database) : Prop where
  rows : ∃ (t : Transfer Decimal) (e : Entry Decimal) (event : OutboxRow),
    q.Makes t ∧ t.status = .completed ∧ t.failureCode = none ∧ e.movement = t.movement ∧
      event.eventType = "transfer.completed" ∧
      event.payload.payload = .transferCompleted
        { transferId := t.id.str
          fromAccountId := q.fromAccountId.str
          toAccountId := q.toAccountId.str
          amount := money q.amount
          currency := "USD"
          entryType := "transfer"
          idempotencyKey := q.idempotencyKey } ∧
      db'.transfers = t.stored :: db.transfers ∧
      db'.ledgerEntries = e.stored.credit :: e.stored.debit :: db.ledgerEntries ∧
      db'.outbox = event :: db.outbox
  elsewhere : db.SameElsewhere db'
  sender : db'.getBalance q.fromAccountId =
    db.getBalance q.fromAccountId - Ticks.ofDecimal q.amount
  receiver : db'.getBalance q.toAccountId = db.getBalance q.toAccountId + Ticks.ofDecimal q.amount
  others : ∀ a, a ≠ q.fromAccountId → a ≠ q.toAccountId → db'.getBalance a = db.getBalance a

/-- Between the two states of the tables one failed transfer was recorded for the request, with one
event, and no money has moved. -/
structure Declined (q : TransferRequest) (db db' : Database) : Prop where
  rows : ∃ (t : Transfer Decimal) (event : OutboxRow),
    q.Makes t ∧ t.status = .failed ∧ t.failureCode = some "INSUFFICIENT_BALANCE" ∧
      event.eventType = "transfer.failed" ∧
      event.payload.payload = .transferFailed
        { transferId := t.id.str
          fromAccountId := q.fromAccountId.str
          toAccountId := q.toAccountId.str
          amount := money q.amount
          currency := "USD"
          failureCode := "INSUFFICIENT_BALANCE"
          entryType := "transfer"
          idempotencyKey := q.idempotencyKey } ∧
      db'.transfers = t.stored :: db.transfers ∧ db'.ledgerEntries = db.ledgerEntries ∧
      db'.outbox = event :: db.outbox
  elsewhere : db.SameElsewhere db'
  balances : ∀ a, db'.getBalance a = db.getBalance a

/-- The entries of Redis, apart from some that are gone. -/
def Remains (redis redis' : String → Option CacheEntry) : Prop :=
  ∀ key, redis' key = redis key ∨ redis' key = none

/-- How a transfer under a new key ends, on the tables and in Redis. -/
def TransferEnds (sha256 : String → String) (q : TransferRequest) (db : Database)
    (redis : String → Option CacheEntry) (out : Except Exc TransferResponse) (db' : Database)
    (redis' : String → Option CacheEntry) : Prop :=
  if (db.accountById q.fromAccountId).isSome ∧ (db.accountById q.toAccountId).isSome then
    if q.amount.Exceeds moneyPlaces (db.getBalance q.fromAccountId) then
      out = .error .insufficientBalance ∧ Declined q db db' ∧ Remains redis redis'
    else
      ∃ r, out = .ok r ∧ Settled q db db' ∧
        Remains (Function.update redis (transferCacheKey q.idempotencyKey)
          (some { requestHash := q.hash sha256, response := .transfer r })) redis'
  else out = .error .accountNotFound ∧ db' = db ∧ Remains redis redis'

/-! ## The tables afterwards -/

section Tables

variable {q : TransferRequest} {t : Transfer Decimal} {e : Entry Decimal} {event : OutboxRow}
  {db : Database}

/-- The tables after a completed transfer. -/
theorem settled_of_writes (hq : q.fromAccountId ≠ q.toAccountId) (ht : q.Makes t)
    (hstatus : t.status = .completed) (hcode : t.failureCode = none) (he : e.movement = t.movement)
    {drawn : List UUID} (hevent : event.Publishes drawn (.transferCompleted
      { transferId := t.id.str
        fromAccountId := q.fromAccountId.str
        toAccountId := q.toAccountId.str
        amount := money q.amount
        currency := "USD"
        entryType := "transfer"
        idempotencyKey := q.idempotencyKey })) :
    Settled q db (db.applyAll (Transaction.transferred t e event).writes) := by
  -- the balances change by the movement of the transfer only
  have hbalance (a : UUID) :
      (db.applyAll (Transaction.transferred t e event).writes).getBalance a =
        t.stored.movement.effect a + db.getBalance a := by
    rw [Database.getBalance_post]
    change balance [e.stored.movement.toPosting] a + _ = _
    rw [balance_cons, balance_nil, add_zero]
    change (e.movement.stored).effect a + _ = _
    rw [he]
    rfl
  have heffect (a : UUID) : t.stored.movement.effect a =
      (if q.toAccountId = a then Ticks.ofDecimal q.amount else 0) -
        (if q.fromAccountId = a then Ticks.ofDecimal q.amount else 0) := by
    rw [← ht.source, ← ht.target, ← ht.amount]
    rfl
  refine
    { rows := ⟨t, e, event, ht, hstatus, hcode, he, hevent.eventType, hevent.payload, ?_, ?_, ?_⟩
      elsewhere := { accounts := ?_, deposits := ?_, withdrawals := ?_ }
      sender := ?_
      receiver := ?_
      others := fun a hsource htarget => ?_ }
  · simp [Transaction.writes, Row.transfer?]
  · simp [Transaction.writes, Row.ledger?]
    exact ⟨rfl, rfl⟩
  · simp [Transaction.writes, Row.outbox?]
  · simp [Transaction.writes, Row.account?]
  · simp [Transaction.writes, Row.deposit?]
  · simp [Transaction.writes, Row.withdrawal?]
  · -- the sender loses the amount, the receiver gains it, everybody else keeps what they have
    rw [hbalance, heffect, if_neg hq.symm, if_pos rfl]
    abel
  · rw [hbalance, heffect, if_pos rfl, if_neg hq]
    abel
  · rw [hbalance, heffect, if_neg htarget.symm, if_neg hsource.symm, sub_zero, zero_add]

/-- The tables after a transfer that has failed. -/
theorem declined_of_writes (ht : q.Makes t) (hstatus : t.status = .failed)
    (hcode : t.failureCode = some "INSUFFICIENT_BALANCE") {drawn : List UUID}
    (hevent : event.Publishes drawn (.transferFailed
      { transferId := t.id.str
        fromAccountId := q.fromAccountId.str
        toAccountId := q.toAccountId.str
        amount := money q.amount
        currency := "USD"
        failureCode := "INSUFFICIENT_BALANCE"
        entryType := "transfer"
        idempotencyKey := q.idempotencyKey })) :
    Declined q db (db.applyAll (Transaction.transferFailed t event).writes) := by
  refine
    { rows := ⟨t, event, ht, hstatus, hcode, hevent.eventType, hevent.payload, ?_, ?_, ?_⟩
      elsewhere := { accounts := ?_, deposits := ?_, withdrawals := ?_ }
      balances := fun a => ?_ }
  · -- the transfer and the event are added, and no leg
    simp [Transaction.writes, Row.transfer?]
  · simp [Transaction.writes, Row.ledger?]
  · simp [Transaction.writes, Row.outbox?]
  · simp [Transaction.writes, Row.account?]
  · simp [Transaction.writes, Row.deposit?]
  · simp [Transaction.writes, Row.withdrawal?]
  · -- no entry, so no balance changes
    rw [Database.getBalance_post]
    exact zero_add _

end Tables

/-! ## The program -/

/-- A transfer key is taken exactly if a transfer carries it. -/
theorem mem_transferKeys {db : Database} {key : String} :
    .transferIdempotencyKey key ∈ db.keys ↔ ∃ t ∈ db.transfers, t.idempotencyKey = key := by
  simp only [Database.keys, List.mem_flatMap]
  constructor
  · rintro ⟨row, hrow, hkey⟩
    cases row with
    | transfer t =>
        exact ⟨t, Database.mem_transfers.mpr hrow, by simpa [Row.keys, eq_comm] using hkey⟩
    | account a => cases huser : a.userId <;> simp [Row.keys, huser] at hkey
    | _ => simp [Row.keys] at hkey
  · rintro ⟨t, ht, rfl⟩
    exact ⟨_, Database.mem_transfers.mp ht, by simp [Row.keys]⟩

section Transfer

variable {st : Solo} {q : TransferRequest} {t : Transfer Decimal} {R : Exc → Solo → Prop}

/-- Locking accounts that exist. -/
theorem solos_lockAccounts {ids : List UUID} {Q : Unit → Solo → Prop}
    (hexist : ∀ id ∈ ids, (st.view.accountById id).isSome) (h : Q () st) :
    Solos (lockAccounts ids) Q R st := by
  induction ids with
  | nil => exact (Contract.wp_pure _ _ _).mpr h
  | cons id ids ih =>
      obtain ⟨a, ha⟩ := Option.isSome_iff_exists.mp (hexist id (List.mem_cons_self ..))
      refine solos_bind.mpr (solos_lockAccount.mpr ?_)
      rw [ha]
      exact ih fun id' hid' => hexist id' (List.mem_cons_of_mem _ hid')

/-- Locking accounts of which one does not exist. -/
theorem solos_lockAccounts_error {ids : List UUID} {Q : Unit → Solo → Prop}
    (hmissing : ∃ id ∈ ids, st.view.accountById id = none) (h : R .accountNotFound st) :
    Solos (lockAccounts ids) Q R st := by
  induction ids with
  | nil =>
      obtain ⟨id, hid, -⟩ := hmissing
      cases hid
  | cons id ids ih =>
      refine solos_bind.mpr (solos_lockAccount.mpr ?_)
      cases haccount : st.view.accountById id with
      | none => exact (Contract.wp_throw _ _ _).mpr h
      | some a =>
          obtain ⟨id', hid', hnone⟩ := hmissing
          refine ih ⟨id', (List.mem_cons.mp hid').resolve_left ?_, hnone⟩
          rintro rfl
          rw [haccount] at hnone
          cases hnone

/-- What the statements of a transfer need of the state that it starts from. -/
structure Payable (st : Solo) (q : TransferRequest) : Prop where
  storable : q.Storable
  fresh : ∀ t ∈ st.db.transfers, t.idempotencyKey ≠ q.idempotencyKey
  source : (st.db.accountById q.fromAccountId).isSome
  target : (st.db.accountById q.toAccountId).isSome
  names : Within st.db.keys st.issued
  left : st.issued.length + 8 ≤ 2 ^ 128
  writes : st.writes = []

/-- The row of the transfer is accepted if its key fits, after statements that take other keys. -/
theorem verdict_transfer {ws : List Write} (hst : Payable st q) (ht : q.Makes t)
    (hid : t.id ∉ st.issued) (hws : ∀ k ∈ (Row.transfer t).keys, k ∉ ws.flatMap Write.keys) :
    (st.db.applyAll ws).verdict (.insert (.transfer t)) =
      if varchar 255 q.idempotencyKey = true then .ok () else .error .dataError := by
  split
  · -- the key fits, and so does everything else
    next hkey =>
    obtain ⟨hfits, hchecks⟩ := (storable_iff ht hkey).mp hst.storable
    refine Database.verdict_of_admits
      { fits := hfits, checks := hchecks, unique := ?_, accounts := ?_ }
    · intro k hk
      rw [(st.db.keys_applyAll ws).mem_iff, List.mem_append, not_or]
      refine ⟨hws k hk, ?_⟩
      simp only [Row.keys, List.mem_cons, List.not_mem_nil, or_false] at hk
      -- the identifier is fresh, and no transfer has the key
      rcases hk with rfl | rfl
      · exact not_mem_of_within hst.names hid
      · rw [ht.key, mem_transferKeys]
        rintro ⟨t', ht', hkey'⟩
        exact hst.fresh t' ht' hkey'
    · -- both accounts exist
      intro fk hfk
      simp only [Row.foreignKeys, List.mem_cons, List.not_mem_nil, or_false] at hfk
      rcases hfk with rfl | rfl
      · rw [ht.source]
        exact Database.accountById_applyAll _ hst.source
      · rw [ht.target]
        exact Database.accountById_applyAll _ hst.target
  · next hkey =>
    refine Database.verdict_of_not_fits ?_
    simp [Row.fits, ht.key, hkey]

/-- The statements of a transfer, which are all accepted if its key fits. -/
theorem solos_flush_transfer {Q : Unit → Solo → Prop} (ws : List Write) (hst : Payable st q)
    (ht : q.Makes t) (hid : t.id ∉ st.issued) {issued : List UUID} (haccepts : st.db.Accepts ws)
    (hws : ∀ k ∈ (Row.transfer t).keys, k ∉ ws.flatMap Write.keys)
    (hok : varchar 255 q.idempotencyKey = true →
      Q () { st with writes := ws ++ [.insert (.transfer t)], issued := issued })
    (herror : varchar 255 q.idempotencyKey = false → R .dataError { st with issued := issued }) :
    Solos (flush (ws ++ [.insert (.transfer t)])) Q R { st with issued := issued } := by
  have hview : ({ st with issued := issued } : Solo).view = st.db := by
    rw [Solo.view, hst.writes, Database.applyAll_nil]
  have hverdict := verdict_transfer hst ht hid hws
  -- if the key fits, all statements are accepted
  by_cases hkey : varchar 255 q.idempotencyKey = true
  · rw [if_pos hkey] at hverdict
    refine (solos_flush ?_).mpr ?_
    · rw [hview]
      exact Database.accepts_concat haccepts hverdict
    · have h := hok hkey
      rwa [hst.writes]
  · -- the transfer does not fit, and the flush fails at its insert
    rw [if_neg hkey] at hverdict
    refine (solos_flush_error ws [] (e := .dataError) ?_ ?_).mpr ?_
    · rwa [hview]
    · rwa [hview]
    · have h := herror (by simpa using hkey)
      rwa [← hst.writes]

/-- Recording a transfer that the balance does not cover. -/
theorem solos_recordInsufficientBalance {Q : Transfer Decimal → Solo → Prop} (hst : Payable st q)
    (hok : varchar 255 q.idempotencyKey = true → ∀ db issued, Declined q st.db db →
      R .insufficientBalance { st with db := db, writes := [], issued := issued })
    (herror : varchar 255 q.idempotencyKey = false → ∀ issued,
      R .dataError { st with issued := issued }) :
    Solos (recordInsufficientBalance q) Q R st := by
  have hleft : st.issued.length + 8 ≤ 2 ^ 128 := hst.left
  refine solos_bind.mpr (solos_now.mpr fun at_ => ?_)
  refine solos_bind.mpr (solos_draw hleft fun id hid hleft => ?_)
  refine solos_bind.mpr (solos_publishEvent hleft rfl rfl fun event eventId hevent _ hfresh _ => ?_)
  simp only [List.mem_cons, not_or] at hfresh
  refine solos_bind.mpr (solos_flush_transfer [.insert (.outbox event)] hst ?_ hid ?_ ?_
    (fun hkey => ?_) fun hkey => ?_)
  · -- the transfer of the request
    constructor <;> rfl
  · -- the event is accepted, as its identifier is fresh
    refine ⟨Database.verdict_of_admits (Database.admits_event ?_), trivial⟩
    exact not_mem_of_within hst.names hfresh.2.2
  · simp [Write.keys, Row.keys]
  · -- the failed transfer is committed, and the error raised after it
    refine solos_bind.mpr (solos_commit.mpr ((Contract.wp_throw _ _ _).mpr ?_))
    exact hok hkey _ _ (declined_of_writes (by constructor <;> rfl) rfl rfl hevent)
  · exact herror hkey _

/-- Recording a transfer that the balance covers. -/
theorem solos_recordTransfer {Q : Transfer Decimal → Solo → Prop} (hst : Payable st q)
    (hok : varchar 255 q.idempotencyKey = true → ∀ t db issued, Settled q st.db db →
      Q t { st with db := db, writes := [], issued := issued })
    (herror : varchar 255 q.idempotencyKey = false → ∀ issued,
      R .dataError { st with issued := issued }) :
    Solos (recordTransfer q) Q R st := by
  have hleft : st.issued.length + 8 ≤ 2 ^ 128 := hst.left
  refine solos_bind.mpr (solos_now.mpr fun at_ => ?_)
  -- the five identifiers that are drawn differ from each other and from all that were issued
  refine solos_bind.mpr (solos_draw hleft fun txnId _ hleft => ?_)
  refine solos_bind.mpr (solos_draw hleft fun id hid hleft => ?_)
  refine solos_bind.mpr (solos_draw hleft fun debitId hdebit hleft => ?_)
  refine solos_bind.mpr (solos_draw hleft fun creditId hcredit hleft => ?_)
  refine solos_bind.mpr (solos_publishEvent hleft rfl rfl fun event eventId hevent _ hfresh _ => ?_)
  simp only [List.mem_cons, not_or] at hid hdebit hcredit hfresh
  have hcurrency : varchar 3 "USD" = true := by decide +kernel
  refine solos_bind.mpr (solos_flush_transfer
    [.insert (.ledger _), .insert (.ledger _), .insert (.outbox event)] hst ?_ hid.2 ?_ ?_
    (fun hkey => ?_) fun hkey => ?_)
  · constructor <;> rfl
  · -- the legs and the event are accepted in front of the row of the transfer
    refine ⟨Database.verdict_of_admits (Database.admits_leg hst.storable.fits hst.storable.positive
        hcurrency ?_ ?_ ?_),
      Database.verdict_of_admits (Database.admits_leg hst.storable.fits hst.storable.positive
        hcurrency ?_ ?_ ?_),
      Database.verdict_of_admits (Database.admits_event ?_), trivial⟩
    · rintro key ⟨⟩
    · exact not_mem_of_within hst.names hdebit.2.2
    · exact hst.source
    · rintro key ⟨⟩
    · simp [Database.keys_apply, Write.keys, Row.keys, hcredit.1,
        not_mem_of_within hst.names hcredit.2.2.2]
    · exact Database.accountById_apply hst.target
    · simp [Database.keys_apply, Write.keys, Row.keys,
        not_mem_of_within hst.names hfresh.2.2.2.2.2]
  · simp [Write.keys, Row.keys]
  · -- the key fits: the transfer is committed as it should be
    refine solos_bind.mpr (solos_commit.mpr ((Contract.wp_pure _ _ _).mpr ?_))
    refine hok hkey _ _ _ (settled_of_writes hst.storable.accounts ?_ rfl rfl
      (e := ⟨_, _, Transfer.movement _, ?_⟩) rfl hevent)
    · constructor <;> rfl
    · constructor <;> rfl
  · -- the key does not fit: the statement fails, and nothing is left of the transaction
    exact herror hkey _

/-- How a transfer under a new key ends: as it should if the key fits its column, and with an error
otherwise if it gets as far as its statements. -/
structure TransferAttempted (sha256 : String → String) (q : TransferRequest) (st : Solo)
    (out : Except Exc TransferResponse) (st' : Solo) : Prop where
  ends : varchar 255 q.idempotencyKey = true →
    TransferEnds sha256 q st.db st.redis out st'.db st'.redis
  misfit : varchar 255 q.idempotencyKey = false → (st.db.accountById q.fromAccountId).isSome →
    (st.db.accountById q.toAccountId).isSome → out = .error .dataError

/-- What a transfer needs of the state that it starts from. -/
structure Requested (st : Solo) (q : TransferRequest) : Prop where
  storable : q.Storable
  fresh : ∀ t ∈ st.db.transfers, t.idempotencyKey ≠ q.idempotencyKey
  uncached : st.redis (transferCacheKey q.idempotencyKey) = none
  names : Within st.db.keys st.issued
  left : st.issued.length + 8 ≤ 2 ^ 128
  writes : st.writes = []

/-- An attempt whose key fits its column. -/
theorem TransferAttempted.of_ends {out : Except Exc TransferResponse} {st' : Solo}
    (hkey : varchar 255 q.idempotencyKey = true)
    (h : TransferEnds sha256 q st.db st.redis out st'.db st'.redis) :
    TransferAttempted sha256 q st out st' where
  ends := fun _ => h
  misfit := fun hmisfit => by
    rw [hkey] at hmisfit
    cases hmisfit

/-- An attempt whose key is too long changes nothing. -/
theorem TransferAttempted.of_misfit {st' : Solo} (hkey : varchar 255 q.idempotencyKey = false) :
    TransferAttempted sha256 q st (.error .dataError) st' where
  ends := fun hfits => by
    rw [hkey] at hfits
    cases hfits
  misfit := fun _ _ _ => rfl

/-- The transaction of a transfer. -/
theorem solos_attemptTransfer (sha256 : String → String) (hst : Requested st q) :
    Solos (attemptTransfer q)
      (fun _ st' => st'.redis = st.redis ∧ ∀ r, TransferAttempted sha256 q st (.ok r)
        { st' with
          redis := Function.update st.redis (transferCacheKey q.idempotencyKey)
            (some { requestHash := q.hash sha256, response := .transfer r }) })
      (fun e st' =>
        (∀ k, e ≠ .integrityError k) ∧ TransferAttempted sha256 q st (.error e) st') st := by
  have hview : st.view = st.db := by rw [Solo.view, hst.writes, Database.applyAll_nil]
  have hremains (redis : String → Option CacheEntry) : Remains redis redis := fun _ => .inl rfl
  refine solos_bind.mpr ?_
  by_cases haccounts : (st.db.accountById q.fromAccountId).isSome ∧
      (st.db.accountById q.toAccountId).isSome
  · -- both accounts exist and are locked
    refine solos_lockAccounts (fun id hid => ?_) (solos_bind.mpr (solos_getBalance.mpr ?_))
    · rw [hview]
      rcases mem_lockOrder_iff.mp hid with rfl | rfl
      · exact haccounts.1
      · exact haccounts.2
    rw [hview]
    have hpayable : Payable st q :=
      { storable := hst.storable
        fresh := hst.fresh
        source := haccounts.1
        target := haccounts.2
        names := hst.names
        left := hst.left
        writes := hst.writes }
    by_cases hexceeds : q.amount.Exceeds moneyPlaces (st.db.getBalance q.fromAccountId)
    · -- the funds do not suffice, and this is what is recorded
      rw [if_pos hexceeds]
      refine solos_recordInsufficientBalance hpayable (fun hkey db issued hdeclined => ?_)
        fun hkey issued => ⟨by simp, .of_misfit hkey⟩
      refine ⟨by simp, .of_ends hkey ?_⟩
      rw [TransferEnds, if_pos haccounts, if_pos hexceeds]
      exact ⟨rfl, hdeclined, hremains _⟩
    · -- the funds suffice
      rw [if_neg hexceeds]
      refine solos_recordTransfer hpayable (fun hkey t db issued hsettled => ?_)
        fun hkey issued => ⟨by simp, .of_misfit hkey⟩
      refine ⟨rfl, fun r => .of_ends hkey ?_⟩
      rw [TransferEnds, if_pos haccounts, if_neg hexceeds]
      exact ⟨r, rfl, hsettled, hremains _⟩
  · -- one of the accounts is missing
    refine solos_lockAccounts_error ?_
      ⟨by simp, ⟨fun _ => ?_, fun _ hsource htarget => absurd ⟨hsource, htarget⟩ haccounts⟩⟩
    · rw [hview]
      by_contra hall
      push Not at hall
      exact haccounts ⟨Option.isSome_iff_ne_none.mpr (hall _ (mem_lockOrder_iff.mpr (.inl rfl))),
        Option.isSome_iff_ne_none.mpr (hall _ (mem_lockOrder_iff.mpr (.inr rfl)))⟩
    · rw [TransferEnds, if_neg haccounts]
      exact ⟨rfl, rfl, hremains _⟩

/-- The transfer, from its start. -/
theorem solos_transfer (hst : Requested st q) :
    Solos (transfer sha256 q) (fun r st' => TransferAttempted sha256 q st (.ok r) st')
      (fun e st' => TransferAttempted sha256 q st (.error e) st') st := by
  unfold transfer
  refine solos_bind.mpr (solos_cacheGet.mpr ?_)
  rw [hst.uncached, and_self]
  refine solos_bind.mpr ((Contract.wp_tryCatch _ _ _ _).mpr ?_)
  refine Contract.wp_mono _ _ (fun t st' ht => ?_) (fun e st' he => ?_)
    (solos_attemptTransfer sha256 hst)
  · refine solos_bind.mpr (solos_cacheSet.mpr ((Contract.wp_pure _ _ _).mpr ?_))
    rw [ht.1]
    exact ht.2 _
  · -- the handler is for violated constraints only
    obtain ⟨hnot, hattempted⟩ := he
    unfold resolveTransfer
    split
    · next k => exact absurd rfl (hnot k)
    · exact (Contract.wp_throw _ _ _).mpr hattempted

end Transfer

/-! ## The result -/

/-- A transfer under a new key, in a state that the wallet can reach. -/
theorem requested (h : Reaches sha256 c) (hleft : IdentifiersLeft c.shared) {q : TransferRequest}
    (hq : q.Storable) (hfresh : ∀ t ∈ c.shared.db.transfers, t.idempotencyKey ≠ q.idempotencyKey)
    (huncached : c.shared.redis (transferCacheKey q.idempotencyKey) = none) :
    Requested c.solo q where
  storable := hq
  fresh := hfresh
  uncached := huncached
  names := within_issued h
  left := hleft
  writes := rfl

/-- Entries may be gone from Redis at several times. -/
theorem Remains.trans {redis redis' redis'' : String → Option CacheEntry} (h : Remains redis redis')
    (h' : Remains redis' redis'') : Remains redis redis'' := by
  intro key
  rcases h' key with heq | hnone
  · rw [heq]
    exact h key
  · exact .inr hnone

/-- Some more entries may be gone when the outcome is looked at. -/
theorem TransferEnds.mono {q : TransferRequest} {db db' : Database}
    {redis redis' redis'' : String → Option CacheEntry} {out : Except Exc TransferResponse}
    (h : TransferEnds sha256 q db redis out db' redis') (hremains : Remains redis' redis'') :
    TransferEnds sha256 q db redis out db' redis'' := by
  by_cases haccounts : (db.accountById q.fromAccountId).isSome ∧
    (db.accountById q.toAccountId).isSome
  · by_cases hexceeds : q.amount.Exceeds moneyPlaces (db.getBalance q.fromAccountId)
    · rw [TransferEnds, if_pos haccounts, if_pos hexceeds] at h ⊢
      exact ⟨h.1, h.2.1, h.2.2.trans hremains⟩
    · rw [TransferEnds, if_pos haccounts, if_neg hexceeds] at h ⊢
      obtain ⟨r, hout, hsettled, hredis⟩ := h
      exact ⟨r, hout, hsettled, hredis.trans hremains⟩
  · rw [TransferEnds, if_neg haccounts] at h ⊢
    exact ⟨h.1, h.2.1, h.2.2.trans hremains⟩

/-- How a transfer under a new key ends, whether the key fits its column or not. -/
theorem transfer_attempted (h : Reaches sha256 c) (hquiet : Quiet c)
    (hleft : IdentifiersLeft c.shared) {q : TransferRequest} (hq : q.Storable)
    (hfresh : ∀ t ∈ c.shared.db.transfers, t.idempotencyKey ≠ q.idempotencyKey)
    (huncached : c.shared.redis (transferCacheKey q.idempotencyKey) = none) :
    Wallet.Alone sha256 c (transfer sha256 q) fun out w =>
      ∃ st, Solo.At c.size st w ∧ TransferAttempted sha256 q c.solo out st :=
  alone_of_solos (fun out st => TransferAttempted sha256 q c.solo out st) h hquiet
    (solos_transfer (requested h hleft hq hfresh huncached))

/-- Running alone, a transfer between two different accounts, of an amount that is positive and fits
its column once it is rounded, under a key that fits its column and that no transfer and no entry of
Redis has, ends in every state that the wallet can reach, and it ends as it should. -/
theorem transfer_settles (h : Reaches sha256 c) (hquiet : Quiet c)
    (hleft : IdentifiersLeft c.shared)
    {q : TransferRequest} (hq : q.Storable) (hkey : varchar 255 q.idempotencyKey = true)
    (hfresh : ∀ t ∈ c.shared.db.transfers, t.idempotencyKey ≠ q.idempotencyKey)
    (huncached : c.shared.redis (transferCacheKey q.idempotencyKey) = none) :
    Wallet.Alone sha256 c (transfer sha256 q) fun out w =>
      TransferEnds sha256 q c.shared.db c.shared.redis out w.shared.db w.shared.redis := by
  refine (transfer_attempted h hquiet hleft hq hfresh huncached).mono fun out w hpost => ?_
  obtain ⟨st, hat, hattempted⟩ := hpost
  have hends := hattempted.ends hkey
  rw [← hat.db] at hends
  exact hends.mono hat.redis

/-- No transaction is open, the two accounts of the request exist and its key is new. -/
def Unsettled (c : Wallet) (q : TransferRequest) : Prop :=
  (∀ i < c.size, (c.sess i).locks = [] ∧ (c.sess i).writes.isEmpty = true) ∧
    IdentifiersLeft c.shared ∧ (c.shared.db.accountById q.fromAccountId).isSome ∧
      (c.shared.db.accountById q.toAccountId).isSome ∧ c.shared.db.transfers = [] ∧
        c.shared.redis (transferCacheKey q.idempotencyKey) = none

/-- Whether a transfer is still unsettled is decidable. -/
instance (c : Wallet) (q : TransferRequest) : Decidable (Unsettled c q) :=
  inferInstanceAs (Decidable ((∀ i < _, _) ∧ _ ≤ _ ∧ _ ∧ _ ∧ _ ∧ _))

section Examples

variable {q : TransferRequest}

/-- While the transfer runs nothing else is going on. -/
theorem Unsettled.quiet (h : Unsettled c q) (hc : Reaches sha256 c) : Quiet c :=
  quiet_of_lt hc fun i hi => ⟨(h.1 i hi).1, List.isEmpty_iff.mp (h.1 i hi).2⟩

/-- No transfer has the key. -/
theorem Unsettled.fresh (h : Unsettled c q) :
    ∀ t ∈ c.shared.db.transfers, t.idempotencyKey ≠ q.idempotencyKey := by
  rw [h.2.2.2.2.1]
  exact fun t ht => nomatch ht

end Examples

/-- Two accounts, of which the first one has a balance of 100 dollars. -/
def twoAccountsSchedule : Schedule :=
  seededSchedule ++ [.spawn (.request (.openAccount ⟨1001⟩))] ++ steps 2 9

/-- A transfer of 10 dollars ends as it should. -/
theorem transfer_settles_dollars : ∃ c, Reaches Sha256.hexdigest c ∧
    Wallet.Alone Sha256.hexdigest c (transfer Sha256.hexdigest (transferOf ⟨false, 10, 0⟩))
      fun out w => TransferEnds Sha256.hexdigest (transferOf ⟨false, 10, 0⟩) c.shared.db
        c.shared.redis out w.shared.db w.shared.redis := by
  obtain ⟨c, hc, hunsettled⟩ := reaches_of_played
    (P := fun c => Unsettled c (transferOf ⟨false, 10, 0⟩))
    (show (played anyStep twoAccountsSchedule).any _ = true by decide +kernel)
  exact ⟨c, hc, transfer_settles hc (hunsettled.quiet hc) hunsettled.2.1
    ⟨by decide, by decide +kernel, by decide +kernel⟩ (by decide +kernel) hunsettled.fresh
    hunsettled.2.2.2.2.2⟩

/-- The same transfer under a key of 256 characters. -/
def longKeyTransfer : TransferRequest :=
  { transferOf ⟨false, 10, 0⟩ with idempotencyKey := String.ofList (List.replicate 256 'k') }

/-- A key that does not fit its column keeps a transfer from being made. -/
theorem transfer_unsettled : ¬ ∀ c, Reaches Sha256.hexdigest c → Quiet c →
    IdentifiersLeft c.shared → ∀ q : TransferRequest, q.Storable →
      (∀ t ∈ c.shared.db.transfers, t.idempotencyKey ≠ q.idempotencyKey) →
        c.shared.redis (transferCacheKey q.idempotencyKey) = none →
          Wallet.Alone Sha256.hexdigest c (transfer Sha256.hexdigest q) fun out w =>
            TransferEnds Sha256.hexdigest q c.shared.db c.shared.redis out w.shared.db
              w.shared.redis := by
  intro hclaim
  obtain ⟨c, hc, hunsettled⟩ := reaches_of_played (P := fun c => Unsettled c longKeyTransfer)
    (show (played anyStep twoAccountsSchedule).any _ = true by decide +kernel)
  have hquiet := hunsettled.quiet hc
  have hq : longKeyTransfer.Storable := ⟨by decide, by decide +kernel, by decide +kernel⟩
  have hmisfit : varchar 255 longKeyTransfer.idempotencyKey = false := by decide +kernel
  obtain ⟨hfresh, hleft, hsource, htarget, -, huncached⟩ := And.intro hunsettled.fresh hunsettled.2
  have hends := hclaim c hc hquiet hleft longKeyTransfer hq hfresh huncached
  obtain ⟨out, w, hout, st, -, hattempted⟩ :=
    (hends.and (transfer_attempted hc hquiet hleft hq hfresh huncached)).exists_outcome
  obtain rfl := hattempted.misfit hmisfit hsource htarget
  -- neither of the outcomes is an error of a data type
  rw [TransferEnds, if_pos ⟨hsource, htarget⟩] at hout
  split at hout
  · cases hout.1
  · obtain ⟨r, hr, -⟩ := hout
    cases hr

end MiniWallet

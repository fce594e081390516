import MiniWallet.Safety.Compensation

/-!
# A webhook alone

The rail announces a payment once, and the wallet answers by recording it: as completed, or as
rejected with a reason. The record is inserted before the service validates the payment, so the
types and checks of its columns come first.

* `DepositRequest.Storable`: the table takes the record of the payment.
* `Deposit.Records`: a record of the payment that has its outcome.
* `WebhookEnds`, `solos_simulateDeposit`: how the webhook ends when it runs alone.
* `webhook_recorded_iff`: the exact condition on the payment under which its outcome is recorded, in
  every state that the wallet can reach.
-/

namespace MiniWallet

open Numeric Process System Program

variable {sha256 : String → String} {c : Wallet}

/-! ## Requests and records -/

/-- What the validators of the webhook admit, of the references that their column has room for. -/
structure DepositRequest.Admitted (q : DepositRequest) : Prop where
  positive : ¬ q.amount.Nonpositive
  sourceType : q.sourceType ∈ allowedSourceTypes
  externalReference : q.externalReference.length ≤ 255

/-- The table takes the record of the payment: the amount is positive and fits its column once it is
rounded, and so do the currency and the reference. -/
structure DepositRequest.Storable (q : DepositRequest) : Prop where
  fits : amountFits q.amount = true
  positive : 0 < Ticks.ofDecimal q.amount
  currency : varchar 3 q.currency = true
  sourceType : varchar 30 q.sourceType = true
  externalReference : varchar 255 q.externalReference = true

/-- The reasons for which a deposit is rejected. -/
def rejectionReasons : List String :=
  ["ACCOUNT_NOT_FOUND", "ACCOUNT_NOT_ACTIVE", "INVALID_AMOUNT", "UNSUPPORTED_CURRENCY"]

/-- The row records the outcome of the payment. -/
structure Deposit.Records (d : Deposit Ticks) (q : DepositRequest) : Prop where
  accountId : d.accountId = q.accountId
  amount : d.amount = Ticks.ofDecimal q.amount
  currency : d.currency = q.currency
  externalReference : d.externalReference = q.externalReference
  outcome : d.status = .completed ∨
    d.status = .rejected ∧ ∃ reason ∈ rejectionReasons, d.rejectionReason = some reason

/-- The record that the service makes of a payment. -/
structure DepositRequest.Makes (q : DepositRequest) (d : Deposit Decimal) : Prop where
  accountId : d.accountId = q.accountId
  amount : d.amount = q.amount
  currency : d.currency = q.currency
  sourceType : d.sourceType = q.sourceType
  externalReference : d.externalReference = q.externalReference

/-- The record of a payment that has just been received. -/
def DepositRequest.pending (q : DepositRequest) (id : UUID) (at_ : Time) : Deposit Decimal where
  id := id
  accountId := q.accountId
  amount := q.amount
  currency := q.currency
  status := .pending
  sourceType := q.sourceType
  externalReference := q.externalReference
  createdAt := at_
  updatedAt := at_

/-- The deposit that is inserted is made of the request. -/
theorem DepositRequest.makes_pending (q : DepositRequest) (id : UUID) (at_ : Time) :
    q.Makes (q.pending id at_) := by
  constructor <;> rfl

section Records

variable {q : DepositRequest} {d : Deposit Decimal}

/-- The values of a payment fit their columns and pass the check exactly if its record does. -/
theorem DepositRequest.Makes.storable_iff (hd : q.Makes d) :
    q.Storable ↔ (Row.deposit d).fits = true ∧ (Row.deposit d).stored.failedCheck? = none := by
  have hchecks : (Row.deposit d).stored.failedCheck? = none ↔ 0 < Ticks.ofDecimal q.amount := by
    rw [← hd.amount]
    change (if 0 < Ticks.ofDecimal d.amount then none else
      some (Constraint.amountCheck .deposits)) = none ↔ _
    split
    · next h => exact iff_of_true rfl h
    · next h => exact iff_of_false (by simp) h
  simp only [hchecks, Row.fits, Bool.and_eq_true, hd.amount, hd.currency, hd.sourceType,
    hd.externalReference]
  exact ⟨fun h => ⟨⟨⟨⟨h.fits, h.currency⟩, h.sourceType⟩, h.externalReference⟩, h.positive⟩,
    fun h => ⟨h.1.1.1.1, h.2, h.1.1.1.2, h.1.1.2, h.1.2⟩⟩

/-- Of an admitted payment, the amount, the currency and the characters of the reference decide. -/
theorem DepositRequest.Admitted.storable_iff (hq : q.Admitted) :
    q.Storable ↔ amountFits q.amount = true ∧ 0 < Ticks.ofDecimal q.amount ∧
      varchar 3 q.currency = true ∧ hasNull q.externalReference = false := by
  have hsource : varchar 30 q.sourceType = true := by
    have hall : ∀ s ∈ allowedSourceTypes, varchar 30 s = true := by decide +kernel
    exact hall _ hq.sourceType
  have hreference : varchar 255 q.externalReference = true ↔
    hasNull q.externalReference = false := by
    simp [varchar, hq.externalReference]
  exact ⟨fun h => ⟨h.fits, h.positive, h.currency, hreference.mp h.externalReference⟩,
    fun ⟨hfits, hpositive, hcurrency, hnull⟩ =>
      ⟨hfits, hpositive, hcurrency, hsource, hreference.mpr hnull⟩⟩

/-- The check of the table is not about the reference. -/
theorem depositCheck_mentions {row : Deposit Ticks} {k : Constraint}
    (h : (Row.deposit row).failedCheck? = some k) : k.mentions "external_reference" = false := by
  simp only [Row.failedCheck?] at h
  split at h
  · cases h
  · cases h
    decide

end Records

namespace Database

variable {db : Database}

/-- The table of deposits among the rows of the database. -/
theorem mem_deposits {d : Deposit Ticks} : d ∈ db.deposits ↔ .deposit d ∈ db.rows := by
  simp only [deposits, List.mem_filterMap]
  constructor
  · rintro ⟨r, hr, heq⟩
    cases r <;> cases heq
    exact hr
  · exact fun hr => ⟨_, hr, rfl⟩

/-- A reference is taken exactly if a deposit carries it. -/
theorem mem_depositKeys {ref : String} :
    .depositExternalReference ref ∈ db.keys ↔ ∃ d ∈ db.deposits, d.externalReference = ref := by
  simp only [keys, List.mem_flatMap]
  constructor
  · rintro ⟨row, hrow, hkey⟩
    cases row with
    | deposit d => exact ⟨d, mem_deposits.mpr hrow, by simpa [Row.keys, eq_comm] using hkey⟩
    | account a => cases huser : a.userId <;> simp [Row.keys, huser] at hkey
    | _ => simp [Row.keys] at hkey
  · rintro ⟨d, hd, rfl⟩
    exact ⟨_, mem_deposits.mp hd, by simp [Row.keys]⟩

/-- The primary key of a deposit is among the keys of the tables. -/
theorem pkey_deposit {d : Deposit Ticks} (hd : d ∈ db.deposits) : .pkey .deposits d.id ∈ db.keys :=
  List.mem_flatMap.mpr ⟨_, mem_deposits.mp hd, by simp [Row.keys]⟩

end Database

/-! ## The program -/

section Webhook

variable {st : Solo} {q : DepositRequest} {d : Deposit Decimal} {R : Exc → Solo → Prop}

/-- What the webhook needs of the state that it starts from. -/
structure Announced (st : Solo) (q : DepositRequest) : Prop where
  fresh : ∀ d ∈ st.db.deposits, d.externalReference ≠ q.externalReference
  system : (st.db.accountById systemAccountId).isSome
  names : Within st.db.keys st.issued
  left : st.issued.length + 8 ≤ 2 ^ 128
  writes : st.writes = []

/-- The record of a storable payment is inserted. -/
theorem verdict_deposit (hst : Announced st q) (hd : q.Makes d) (hq : q.Storable)
    (hid : d.id ∉ st.issued) : st.db.verdict (.insert (.deposit d)) = .ok () := by
  obtain ⟨hfits, hchecks⟩ := hd.storable_iff.mp hq
  refine Database.verdict_of_admits
    { fits := hfits, checks := hchecks, unique := ?_, accounts := ?_ }
  · intro k hk
    simp only [Row.keys, List.mem_cons, List.not_mem_nil, or_false] at hk
    rcases hk with rfl | rfl
    · exact not_mem_of_within hst.names hid
    · rw [hd.externalReference, Database.mem_depositKeys]
      rintro ⟨d', hd', href⟩
      exact hst.fresh d' hd' href
  · rintro fk ⟨⟩

/-- Inserting the record of a payment that is not storable fails, and not because of its
reference. -/
theorem verdict_deposit_error (db : Database) (hd : q.Makes d) (hq : ¬ q.Storable) :
    ∃ e, db.verdict (.insert (.deposit d)) = .error e ∧
      (e = .dataError ∨ ∃ k, e = .integrityError k ∧ k.mentions "external_reference" = false) := by
  by_cases hfits : (Row.deposit d).fits = true
  · cases hcheck : (Row.deposit d).stored.failedCheck? with
    | none => exact absurd (hd.storable_iff.mpr ⟨hfits, hcheck⟩) hq
    | some k =>
        exact ⟨_, Database.verdict_of_check hfits hcheck,
          .inr ⟨k, rfl, depositCheck_mentions hcheck⟩⟩
  · exact ⟨_, Database.verdict_of_not_fits (by simpa using hfits), .inl rfl⟩

/-- Inserting the record, before anything else was written. -/
theorem solos_insertDeposit {Q : Option (Deposit Ticks) → Solo → Prop} (hwrites : st.writes = [])
    (hverdict : st.db.verdict (.insert (.deposit d)) = .ok ())
    (h : Q none { st with writes := [.insert (.deposit d)] }) :
    Solos (insertDeposit q d) Q R st := by
  have hview : st.view = st.db := by rw [Solo.view, hwrites, Database.applyAll_nil]
  refine (Contract.wp_tryCatch _ _ _ _).mpr (solos_bind.mpr ((solos_write ?_).mpr ?_))
  · rw [hview]
    exact hverdict
  · rw [hwrites]
    exact (Contract.wp_pure _ _ _).mpr h

/-- A record that is refused, and not because of its reference. -/
theorem solos_insertDeposit_error {Q : Option (Deposit Ticks) → Solo → Prop}
    (hwrites : st.writes = []) {e : Exc}
    (hverdict : st.db.verdict (.insert (.deposit d)) = .error e)
    (he : e = .dataError ∨ ∃ k, e = .integrityError k ∧ k.mentions "external_reference" = false)
    (h : R e st) : Solos (insertDeposit q d) Q R st := by
  have hview : st.view = st.db := by rw [Solo.view, hwrites, Database.applyAll_nil]
  have hst : ({ st with writes := [] } : Solo) = st := by rw [← hwrites]
  rw [← hview] at hverdict
  refine (Contract.wp_tryCatch _ _ _ _).mpr (solos_bind.mpr ((solos_write_error hverdict).mpr ?_))
  rw [hst]
  rcases he with rfl | ⟨k, rfl, hk⟩
  · exact (Contract.wp_throw _ _ _).mpr h
  · refine solos_bind.mpr (solos_rollback.mpr ?_)
    rw [hst, hk]
    exact (Contract.wp_throw _ _ _).mpr h

/-- The service gives a documented reason, or the account exists and is not that of the system. -/
theorem solos_validateDeposit {Q : Option String → Solo → Prop}
    (hreject : ∀ reason ∈ rejectionReasons, Q (some reason) st)
    (haccept : (st.view.accountById q.accountId).isSome → Q none st) :
    Solos (validateDeposit q) Q R st := by
  unfold validateDeposit
  cases hreason : rejectionReason q with
  | some reason =>
      refine (Contract.wp_pure _ _ _).mpr (hreject reason ?_)
      -- each of the reasons that need no look at the account is documented
      unfold rejectionReason at hreason
      split at hreason
      · cases hreason
        decide
      · split at hreason
        · cases hreason
          decide
        · split at hreason <;> cases hreason
          decide
  -- the account is missing, or it is that of the system, or the deposit is accepted
  | none =>
      refine solos_bind.mpr (solos_lockAccount.mpr ?_)
      cases haccount : st.view.accountById q.accountId with
      | none => exact (Contract.wp_pure _ _ _).mpr (hreject _ (by decide))
      | some account =>
          dsimp only
          split
          · exact (Contract.wp_pure _ _ _).mpr (hreject _ (by decide))
          · exact (Contract.wp_pure _ _ _).mpr (haccept (by rw [haccount]; rfl))

/-- The tables gain one deposit, which records the outcome of the payment. -/
def OutcomeRecorded (q : DepositRequest) (db db' : Database) : Prop :=
  ∃ row, row.Records q ∧ db'.deposits = row :: db.deposits

section Finish

variable (hst : Announced st q) (hd : q.Makes d) (hid : d.id ∉ st.issued) {at_ : Time}

/-- The state of the process once the record is inserted. -/
def Solo.inserting (st : Solo) (d : Deposit Decimal) : Solo :=
  { st with writes := [.insert (.deposit d)], issued := d.id :: st.issued }

/-- The new deposit can be updated. -/
theorem verdict_setDeposit {db : Database} {set : DepositSet} (h : d.stored ∈ db.deposits) :
    db.verdict (.setDeposit d.id set) = .ok () := by
  refine if_pos (List.any_eq_true.mpr ⟨d.stored, h, ?_⟩)
  exact decide_eq_true rfl

include hst hid

/-- An update of the new deposit concerns no other one. -/
theorem deposits_set (set : DepositSet) :
    (st.db.deposits.map fun d' => if d'.id = d.id then set.apply d' else d') = st.db.deposits := by
  have hfresh := not_mem_of_within hst.names (t := .deposits) hid
  refine (List.map_congr_left fun d' hd' => if_neg ?_).trans (List.map_id _)
  intro hsame
  exact hfresh (hsame ▸ Database.pkey_deposit hd')

/-- The tables after the payment has been rejected. -/
theorem deposits_rejected {s : DepositSet} {event : OutboxRow} :
    (st.db.applyAll (Transaction.depositRejected d s event).writes).deposits =
      s.apply d.stored :: st.db.deposits := by
  simp [Transaction.writes, Row.deposit?, Deposit.map, deposits_set hst hid]

/-- The tables after the payment has been completed. -/
theorem deposits_deposited {s : DepositSet} {e : Entry Decimal} {event : OutboxRow} :
    (st.db.applyAll (Transaction.deposited d e s event).writes).deposits =
      s.apply d.stored :: st.db.deposits := by
  simp [Transaction.writes, Row.deposit?, Deposit.map, deposits_set hst hid]

omit hst hid in
include hd in
/-- The outcome of the payment is recorded. -/
theorem records_set {s : DepositSet}
    (hs : s.status = .completed ∨
      s.status = .rejected ∧ ∃ reason ∈ rejectionReasons, s.rejectionReason = some reason) :
    (s.apply d.stored).Records q where
  accountId := hd.accountId
  amount := congrArg Ticks.ofDecimal hd.amount
  currency := hd.currency
  externalReference := hd.externalReference
  outcome := by
    refine hs.imp_right fun ⟨hstatus, reason, hreason, hset⟩ => ⟨hstatus, reason, hreason, ?_⟩
    simp [DepositSet.apply, hset]

include hd

/-- The payment is rejected. -/
theorem solos_rejectDeposit {reason : String} (hreason : reason ∈ rejectionReasons) :
    Solos (rejectDeposit d reason at_) (fun _ st' => OutcomeRecorded q st.db st'.db) R
      (st.inserting d) := by
  have hleft : (d.id :: st.issued).length + 7 ≤ 2 ^ 128 := by
    rw [List.length_cons]
    have := hst.left
    omega
  refine solos_bind.mpr (solos_publishEvent hleft rfl rfl fun event eventId _ _ hevent _ => ?_)
  simp only [Solo.inserting, List.mem_cons, not_or] at hevent
  refine solos_bind.mpr ((solos_flush ?_).mpr (solos_bind.mpr (solos_commit.mpr ?_)))
  · change ((Write.insert (.deposit d)).apply st.db).Accepts _
    refine ⟨verdict_setDeposit ?_, Database.verdict_of_admits (Database.admits_event ?_), trivial⟩
    · simp [Row.deposit?]
    · simp [Database.keys_apply, Write.keys, Row.keys, not_mem_of_within hst.names hevent.2.2]
  · exact (Contract.wp_pure _ _ _).mpr
      ⟨_, records_set hd (.inr ⟨rfl, reason, hreason, rfl⟩), deposits_rejected hst hid⟩

/-- The payment is completed. -/
theorem solos_completeDeposit (hq : q.Storable)
    (haccount : (st.db.accountById d.accountId).isSome) :
    Solos (completeDeposit d at_) (fun _ st' => OutcomeRecorded q st.db st'.db) R
      (st.inserting d) := by
  -- one identifier has been used up by the deposit itself
  have hleft : (d.id :: st.issued).length + 7 ≤ 2 ^ 128 := by
    rw [List.length_cons]
    have := hst.left
    omega
  refine solos_bind.mpr (solos_draw hleft fun txnId _ hleft => ?_)
  refine solos_bind.mpr (solos_draw hleft fun creditId hcredit hleft => ?_)
  refine solos_bind.mpr (solos_draw hleft fun debitId hdebit hleft => ?_)
  refine solos_bind.mpr (solos_publishEvent hleft rfl rfl fun event eventId _ _ hevent _ => ?_)
  simp only [Solo.inserting, List.mem_cons, not_or] at hcredit hdebit hevent
  have hamount : amountFits d.amount = true := hd.amount ▸ hq.fits
  have hpositive : 0 < Ticks.ofDecimal d.amount := hd.amount ▸ hq.positive
  have hcurrency : varchar 3 d.currency = true := hd.currency ▸ hq.currency
  refine solos_bind.mpr ((solos_flush ?_).mpr (solos_bind.mpr (solos_commit.mpr ?_)))
  · -- the update, both legs and the event are accepted one after the other
    change ((Write.insert (.deposit d)).apply st.db).Accepts _
    refine ⟨verdict_setDeposit ?_,
      Database.verdict_of_admits (Database.admits_leg hamount hpositive hcurrency ?_ ?_ ?_),
      Database.verdict_of_admits (Database.admits_leg hamount hpositive hcurrency ?_ ?_ ?_),
      Database.verdict_of_admits (Database.admits_event ?_), trivial⟩
    · simp [Row.deposit?]
    · rintro key ⟨⟩
    · simp [Database.keys_apply, Write.keys, Row.keys, not_mem_of_within hst.names hcredit.2.2]
    · exact Database.accountById_apply (Database.accountById_apply haccount)
    · rintro key ⟨⟩
    · simp [Database.keys_apply, Write.keys, Row.keys, not_mem_of_within hst.names hdebit.2.2.2,
        hdebit.1]
    · exact Database.accountById_apply
        (Database.accountById_apply (Database.accountById_apply hst.system))
    · simp [Database.keys_apply, Write.keys, Row.keys,
        not_mem_of_within hst.names hevent.2.2.2.2.2]
  · -- the row has the outcome that the service decided on
    refine (Contract.wp_pure _ _ _).mpr ⟨_, records_set
      (s := { status := .completed, completedAt := some at_, updatedAt := at_ }) hd
      (.inl rfl), ?_⟩
    exact deposits_deposited hst hid (e := ⟨_, _, d.movement, by constructor <;> rfl⟩)

end Finish

/-- How the webhook ends, and the deposits that it leaves behind. -/
structure WebhookEnds (db : Database) (q : DepositRequest) (out : Except Exc DepositResponse)
    (db' : Database) : Prop where
  recorded : q.Storable → (∃ r, out = .ok r) ∧ OutcomeRecorded q db db'
  refused : ¬ q.Storable → (∃ e, out = .error e) ∧ db' = db

/-- The webhook, from its start. -/
theorem solos_simulateDeposit (hst : Announced st q) :
    Solos (simulateDeposit q) (fun r st' => WebhookEnds st.db q (.ok r) st'.db)
      (fun e st' => WebhookEnds st.db q (.error e) st'.db) st := by
  have hleft : st.issued.length + 8 ≤ 2 ^ 128 := hst.left
  refine solos_bind.mpr (solos_now.mpr fun at_ => ?_)
  refine solos_bind.mpr (solos_draw hleft fun id hid _ => ?_)
  have hmakes := q.makes_pending id at_
  by_cases hq : q.Storable
  · -- the pending row is accepted
    have hverdict := verdict_deposit hst hmakes hq hid
    refine solos_bind.mpr (solos_insertDeposit hst.writes hverdict ?_)
    refine solos_bind.mpr (solos_validateDeposit (fun reason hreason => ?_) fun haccount => ?_)
    · -- a reason is found: the deposit is rejected
      refine Contract.wp_mono _ _ (fun r st' h => ?_) (fun _ _ h => h)
        (solos_rejectDeposit hst hmakes hid hreason)
      exact ⟨fun _ => ⟨⟨r, rfl⟩, h⟩, fun hnot => absurd hq hnot⟩
    · -- none is found: it is completed
      refine Contract.wp_mono _ _ (fun r st' h => ?_) (fun _ _ h => h)
        (solos_completeDeposit hst hmakes hid hq haccount)
      exact ⟨fun _ => ⟨⟨r, rfl⟩, h⟩, fun hnot => absurd hq hnot⟩
  · -- the pending row is refused, and nothing is recorded
    obtain ⟨e, hverdict, he⟩ := verdict_deposit_error st.db hmakes hq
    refine solos_bind.mpr (solos_insertDeposit_error hst.writes hverdict he ?_)
    exact ⟨fun hstorable => absurd hstorable hq, fun _ => ⟨⟨e, rfl⟩, rfl⟩⟩

end Webhook

/-! ## The result -/

/-- A payment whose reference is new is announced. -/
theorem announced (h : Reaches sha256 c) (hleft : IdentifiersLeft c.shared) {q : DepositRequest}
    (hfresh : ∀ d ∈ c.shared.db.deposits, d.externalReference ≠ q.externalReference) :
    Announced c.solo q where
  fresh := hfresh
  system := system_exists h
  names := within_issued h
  left := hleft
  writes := rfl

/-- How the webhook ends in a state that the wallet can reach. -/
theorem webhook_ends (h : Reaches sha256 c) (hquiet : Quiet c) (hleft : IdentifiersLeft c.shared)
    {q : DepositRequest}
    (hfresh : ∀ d ∈ c.shared.db.deposits, d.externalReference ≠ q.externalReference) :
    Wallet.Alone sha256 c (simulateDeposit q) fun out w =>
      ∃ st, Solo.At c.size st w ∧ WebhookEnds c.shared.db q out st.db :=
  alone_of_solos (fun out st => WebhookEnds c.shared.db q out st.db) h hquiet
    (solos_simulateDeposit (announced h hleft hfresh))

/-- Running alone, the webhook of an admitted payment with a new reference ends in every state that
the wallet can reach. It returns and records the outcome of the payment exactly if the amount is
positive and fits its column once it is rounded, the currency fits its column, and the reference has
no null character. -/
theorem webhook_recorded_iff (h : Reaches sha256 c) (hquiet : Quiet c)
    (hleft : IdentifiersLeft c.shared) {q : DepositRequest} (hq : q.Admitted)
    (hfresh : ∀ d ∈ c.shared.db.deposits, d.externalReference ≠ q.externalReference) :
    Wallet.Alone sha256 c (simulateDeposit q)
        (fun out w => (∃ r, out = .ok r) ∧ OutcomeRecorded q c.shared.db w.shared.db) ↔
      amountFits q.amount = true ∧ 0 < Ticks.ofDecimal q.amount ∧ varchar 3 q.currency = true ∧
        hasNull q.externalReference = false := by
  have halone := webhook_ends h hquiet hleft hfresh
  rw [← hq.storable_iff]
  constructor
  · intro hrecorded
    obtain ⟨out, w, ⟨⟨r, hout⟩, -⟩, st, -, hends⟩ := (hrecorded.and halone).exists_outcome
    by_contra hstorable
    -- otherwise the program raises
    obtain ⟨⟨e, he⟩, -⟩ := hends.refused hstorable
    cases hout.symm.trans he
  · intro hstorable
    refine halone.mono fun out w ⟨st, hat, hends⟩ => ?_
    obtain ⟨hout, hrecorded⟩ := hends.recorded hstorable
    exact ⟨hout, hat.db ▸ hrecorded⟩

/-- No transaction is open, and there is no deposit. -/
def Undeposited (c : Wallet) : Prop :=
  (∀ i < c.size, (c.sess i).locks = [] ∧ (c.sess i).writes.isEmpty = true) ∧
    IdentifiersLeft c.shared ∧ c.shared.db.deposits = []

/-- Whether there is no deposit yet is decidable. -/
instance (c : Wallet) : Decidable (Undeposited c) :=
  inferInstanceAs (Decidable ((∀ i < _, _) ∧ _ ≤ _ ∧ _))

/-- A payment of an amount, in a currency, by bank transfer. -/
def paymentOf (amount : Decimal) (currency : String) : DepositRequest where
  accountId := ⟨1⟩
  amount := amount
  currency := currency
  sourceType := "bank_transfer"
  externalReference := "rail"

/-- The outcome of a payment of 10 dollars is recorded. -/
theorem webhook_recorded_iff_dollars : ∃ c, Reaches Sha256.hexdigest c ∧
    Wallet.Alone Sha256.hexdigest c (simulateDeposit (paymentOf ⟨false, 10, 0⟩ "USD"))
      fun out w => (∃ r, out = .ok r) ∧
        OutcomeRecorded (paymentOf ⟨false, 10, 0⟩ "USD") c.shared.db w.shared.db := by
  obtain ⟨c, hc, hquiet, hleft, hnone⟩ := reaches_of_played (P := Undeposited)
    (show (played anyStep seededSchedule).any _ = true by decide +kernel)
  refine ⟨c, hc, (webhook_recorded_iff hc (quiet_of_lt hc fun i hi => ⟨(hquiet i hi).1,
    List.isEmpty_iff.mp (hquiet i hi).2⟩) hleft ⟨by decide, by decide, by decide⟩ ?_).mpr
      (by decide +kernel)⟩
  rw [hnone]
  exact fun d hd => nomatch hd

/-- The outcome of a payment whose amount is rounded to zero is not recorded. -/
theorem webhook_refused : ¬ ∀ c, Reaches Sha256.hexdigest c → Quiet c → IdentifiersLeft c.shared →
    ∀ q : DepositRequest, q.Admitted →
      (∀ d ∈ c.shared.db.deposits, d.externalReference ≠ q.externalReference) →
        Wallet.Alone Sha256.hexdigest c (simulateDeposit q) fun out w =>
          (∃ r, out = .ok r) ∧ OutcomeRecorded q c.shared.db w.shared.db := by
  intro hclaim
  -- the deployment is empty, and the amount too small for four places
  obtain ⟨c, hc, hquiet, hleft, hnone⟩ := reaches_of_played (P := Undeposited)
    (show (played anyStep []).any _ = true by decide +kernel)
  replace hquiet := quiet_of_lt hc fun i hi =>
    ⟨(hquiet i hi).1, List.isEmpty_iff.mp (hquiet i hi).2⟩
  let q := paymentOf ⟨false, 1, -5⟩ "USD"
  have hadmitted : q.Admitted := ⟨by decide, by decide, by decide⟩
  have hfresh : ∀ d ∈ c.shared.db.deposits, d.externalReference ≠ q.externalReference := by
    rw [hnone]
    exact fun d hd => nomatch hd
  have hrecorded := hclaim c hc hquiet hleft q hadmitted hfresh
  -- the claim says that the request returns, and the model that it fails
  obtain ⟨out, w, ⟨⟨r, hout⟩, -⟩, st, -, hends⟩ :=
    (hrecorded.and (webhook_ends hc hquiet hleft hfresh)).exists_outcome
  obtain ⟨⟨e, he⟩, -⟩ := hends.refused fun hstorable => by
    have hpositive : ¬ 0 < Ticks.ofDecimal q.amount := by decide +kernel
    exact hpositive hstorable.positive
  cases hout.symm.trans he

end MiniWallet

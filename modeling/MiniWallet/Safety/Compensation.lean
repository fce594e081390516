import MiniWallet.Safety.Refunds
import MiniWallet.Safety.Solo
import MiniWallet.Schema.Printable

/-!
# Compensation alone

The reversal of a withdrawal carries a key that is derived from the withdrawal. The key stands in
the same unique column as the keys that clients choose for their seeds.

* `Withdrawal.Stored`: what Postgres has checked of the values of a withdrawal.
* `CompensationEnds`, `solos_compensate`: how compensation ends when it runs alone.
* `compensation_commits_iff`: the exact condition on the ledger under which it commits, in every
  state that the wallet can reach.
-/

namespace MiniWallet

open Numeric Process System Program

variable {sha256 : String → String} {c : Wallet}

/-! ## What the tables hold -/

/-- What Postgres has checked of the values of a withdrawal. -/
structure Withdrawal.Stored (w : Withdrawal Ticks) : Prop where
  positive : 0 < w.amount
  bounded : w.amount.natAbs < 10 ^ 19
  currency : varchar 3 w.currency = true

/-- If the row is a withdrawal, its values were checked. -/
def Row.Checked : Row Ticks → Prop
  | .withdrawal w => w.Stored
  | _ => True

/-- The values of every withdrawal in the tables were checked. -/
theorem withdrawal_stored (h : Reaches sha256 c) {w : Withdrawal Ticks}
    (hw : w ∈ c.shared.db.withdrawals) : w.Stored := by
  obtain ⟨t₀, h⟩ := h
  refine rows_invariant (P := Row.Checked) ?_ ?_ (fun _ => trivial) ?_ h _
    (Database.mem_withdrawals.mp hw)
  · intro id set r hr
    cases r <;> exact hr
  · -- the currency and the amount of a withdrawal are never set
    intro id set r hr
    cases r with
    | withdrawal w =>
        have hw : w.Stored := hr
        simp only [Row.setWithdrawal, Row.Checked]
        split
        · exact ⟨hw.positive, hw.bounded, hw.currency⟩
        · exact hw
    | _ => exact hr
  · intro row hfits hchecks
    cases row with
    -- the check on the amount is the one of the column
    | withdrawal w =>
        have hpositive : 0 < Ticks.ofDecimal w.amount := by
          by_contra hneg
          have hfailed : (Row.withdrawal w).stored.failedCheck? =
            some (.amountCheck .withdrawals) :=
            if_neg hneg
          rw [hfailed] at hchecks
          cases hchecks
        simp only [Row.fits, Bool.and_eq_true] at hfits
        exact ⟨hpositive, of_decide_eq_true hfits.1.1.1.1, hfits.1.1.1.2⟩
    | _ => trivial

/-- The system account exists. -/
theorem system_exists (h : Reaches sha256 c) :
    (c.shared.db.accountById systemAccountId).isSome := by
  obtain ⟨t₀, h⟩ := h
  refine h.invariant (abides_any _)
    (I := fun w => (w.shared.db.accountById systemAccountId).isSome = true) ?_
  refine { init := rfl, spawn := fun _ hI => hI, call := ?_, stop := fun _ hI _ => hI, env := ?_ }
  · intro c i o r hcall hI
    dsimp only [afterCall, wallet]
    rcases effect_db o r (c.sess i) c.shared with hdb | ⟨hdb, -⟩
    · rwa [hdb]
    · rw [hdb]
      exact Database.accountById_applyAll _ hI
  · rintro c _ - hI ⟨clock, redis, rfl, -⟩
    exact hI

/-- The reversal key fits its column. -/
theorem varchar_reversalKey (id : UUID) : varchar 255 (reversalKey id) = true := by
  have hlength := length_uuid id
  have hid := hasNull_uuid id
  have hprefix : hasNull "reversal:" = false := by decide +kernel
  unfold reversalKey varchar
  generalize id.str = text at hlength hid ⊢
  have hnull : hasNull ("reversal:" ++ text) = false := by
    simp only [hasNull, String.toList_append, List.contains_eq_mem, List.mem_append,
      decide_eq_false_iff_not] at hprefix hid ⊢
    exact fun hmem => hmem.elim hprefix hid
  rw [hnull, String.length_append, hlength]
  decide

/-! ## The program -/

section Compensate

variable {st : Solo} {w : Withdrawal Decimal} {code : String}

/-- What compensation needs of the state that it starts from. -/
structure Refundable (st : Solo) (w : Withdrawal Decimal) : Prop where
  amount : amountFits w.amount = true
  positive : 0 < Ticks.ofDecimal w.amount
  currency : varchar 3 w.currency = true
  system : (st.db.accountById systemAccountId).isSome
  account : (st.db.accountById w.accountId).isSome
  row : (st.db.withdrawalById w.id).isSome
  names : Within st.db.keys st.issued
  left : st.issued.length + 8 ≤ 2 ^ 128
  writes : st.writes = []

/-- The identifiers `ids` were drawn since `before`, and no more than eight in all. -/
structure DrawnSince (before now : List UUID) (ids : List UUID) : Prop where
  kept : ∀ id ∈ before, id ∈ now
  drawn : ∀ id ∈ ids, id ∈ now
  fresh : ∀ id ∈ ids, id ∉ before
  nodup : ids.Nodup
  few : now.length ≤ before.length + 8

/-- Compensation sends its statements under identifiers that are fresh. -/
theorem solos_compensate_flush {Q : Unit → Solo → Prop} {R : Exc → Solo → Prop}
    (hleft : st.issued.length + 8 ≤ 2 ^ 128)
    (h : ∀ (e : Entry Decimal) (set : WithdrawalSet) (event : OutboxRow) (issued : List UUID),
      e.Reverses w → set.Fails → set.failureCode = some code →
      DrawnSince st.issued issued [e.debit.id, e.credit.id, event.id] →
      Solos (flush (Transaction.compensated w.id [] e set event).writes) Q R
        { st with issued := issued }) :
    Solos (SagaRecovery.compensate w code) Q R st := by
  -- the identifiers and the times are drawn first
  refine solos_bind.mpr (solos_draw hleft fun txnId htxn hleft => ?_)
  refine solos_bind.mpr (solos_now.mpr fun t => ?_)
  refine solos_bind.mpr (solos_draw hleft fun debitId hdebit hleft => ?_)
  refine solos_bind.mpr (solos_draw hleft fun creditId hcredit hleft => ?_)
  refine solos_bind.mpr (solos_publishEvent hleft rfl rfl fun event eventId hevent _ hid _ => ?_)
  refine solos_bind.mpr (solos_now.mpr fun t' => ?_)
  simp only [List.mem_cons, not_or] at hdebit hcredit hid
  refine h ⟨_, _, w.reversal, ?_⟩ _ event _ ⟨rfl, rfl, rfl⟩ ⟨rfl, rfl, rfl⟩ rfl ?_
  · -- the two legs reverse the reservation
    constructor <;> rfl
  · -- and what was drawn is fresh and distinct
    constructor
    · intro id hold
      simp [hold]
    · simp
    · simp [hdebit.2, hcredit.2.2, hid.2.2.2.2]
    · simp [Ne.symm hcredit.1, Ne.symm hid.2.1, Ne.symm hid.2.2.1]
    · simp

section Statements

variable {e : Entry Decimal} {set : WithdrawalSet} {event : OutboxRow}
  (hw : Refundable st w) (he : e.Reverses w)

include hw he

/-- The debit of the reversal is accepted. -/
theorem verdict_reversal_debit (hdebit : e.debit.id ∉ st.issued) :
    st.db.verdict (.insert (.ledger e.debit)) = .ok () := by
  obtain ⟨hmovement, hkey, -⟩ := he
  have hd := e.double
  rw [hmovement] at hd
  refine Database.verdict_of_admits (Database.admits_leg ?_ ?_ ?_ ?_ ?_ ?_)
  · rw [hd.debit_amount]
    exact hw.amount
  · rw [hd.debit_amount]
    exact hw.positive
  · rw [hd.debit_currency]
    exact hw.currency
  · rw [hkey]
    exact fun key hmem => nomatch hmem
  · exact not_mem_of_within hw.names hdebit
  · rw [hd.debit_account]
    exact hw.system

/-- The credit of the reversal is accepted exactly if its key is free. -/
theorem verdict_reversal_credit (hcredit : e.credit.id ∉ st.issued)
    (hne : e.debit.id ≠ e.credit.id) :
    ((Write.insert (.ledger e.debit)).apply st.db).verdict (.insert (.ledger e.credit)) =
      if .ledgerIdempotencyKey (reversalKey w.id) ∈ st.db.keys then
        .error (.integrityError .ledgerIdempotencyKey)
      else .ok () := by
  obtain ⟨hmovement, hkeyless, hkey⟩ := he
  have hd := e.double
  rw [hmovement] at hd
  have hamount : e.credit.amount = w.amount := hd.credit_amount
  have hcurrency : e.credit.currency = w.currency := hd.credit_currency
  have hkeys : ((Write.insert (.ledger e.debit)).apply st.db).keys =
      .pkey .ledgerEntries e.debit.id :: st.db.keys := by
    simp [Database.keys_apply, Write.keys, Row.keys, hkeyless]
  have hfresh : .pkey .ledgerEntries e.credit.id ∉
      ((Write.insert (.ledger e.debit)).apply st.db).keys := by
    rw [hkeys]
    simpa [hne.symm] using not_mem_of_within hw.names hcredit
  split
  · -- the key is taken: the values of the leg are fine, and the unique key is violated
    next htaken =>
    have hfits : (Row.ledger e.credit).fits = true := by
      simp [Row.fits, hamount, hcurrency, hw.amount, hw.currency, hkey, varchar_reversalKey]
    have hpositive : 0 < Ticks.ofDecimal e.credit.amount := by
      rw [hamount]
      exact hw.positive
    have hchecks : (Row.ledger e.credit).stored.failedCheck? = none := if_pos hpositive
    refine Database.verdict_of_taken hfits hchecks
      (k := .ledgerIdempotencyKey (reversalKey w.id)) ?_
    simp [Row.keys, hkey, hkeys, htaken, hne.symm, not_mem_of_within hw.names hcredit]
  · -- the key is free, and nothing else can be wrong with the leg
    next hfree =>
    refine Database.verdict_of_admits (Database.admits_leg ?_ ?_ ?_ ?_ hfresh ?_)
    · rw [hamount]
      exact hw.amount
    · rw [hamount]
      exact hw.positive
    · rw [hcurrency]
      exact hw.currency
    · rw [hkey]
      rintro key hmem
      cases hmem
      exact ⟨varchar_reversalKey _, by simpa [hkeys] using hfree⟩
    · rw [hd.credit_account]
      exact Database.accountById_apply hw.account

/-- The row of the event is accepted after the legs. -/
theorem verdict_reversal_event (hevent : event.id ∉ st.issued) :
    ((Write.insert (.ledger e.credit)).apply
      ((Write.insert (.ledger e.debit)).apply st.db)).verdict (.insert (.outbox event)) =
        .ok () := by
  refine Database.verdict_of_admits (Database.admits_event ?_)
  simp [Database.keys_apply, Write.keys, Row.keys, he.2.1, he.2.2,
    not_mem_of_within hw.names hevent]

/-- With the key free and a failure code that fits its column, all statements are accepted. -/
theorem accepts_compensated (hdebit : e.debit.id ∉ st.issued) (hcredit : e.credit.id ∉ st.issued)
    (hne : e.debit.id ≠ e.credit.id) (hevent : event.id ∉ st.issued)
    (hfree : .ledgerIdempotencyKey (reversalKey w.id) ∉ st.db.keys) (hset : set.fits = true) :
    st.db.Accepts (Transaction.compensated w.id [] e set event).writes := by
  have hrow : ((Write.insert (.outbox event)).apply ((Write.insert (.ledger e.credit)).apply
      ((Write.insert (.ledger e.debit)).apply st.db))).withdrawalById w.id =
        st.db.withdrawalById w.id := by
    simp [Database.withdrawalById, Row.withdrawal?]
  refine ⟨verdict_reversal_debit hw he hdebit, ?_, verdict_reversal_event hw he hevent, ?_, trivial⟩
  · exact (verdict_reversal_credit hw he hcredit hne).trans (if_neg hfree)
  · simp [Database.verdict, hset, hrow, Option.isSome_iff_ne_none.mp hw.row]

end Statements

/-- The state before the transaction, as if what it has written so far were committed. -/
def Solo.folded (st : Solo) : Solo := { st with db := st.view, writes := [] }

/-- Compensation, at any point of a transaction. The credit is refused if its key is taken, and the
update of the withdrawal if the failure code does not fit. -/
theorem solos_compensate_cases {Q : Unit → Solo → Prop} {R : Exc → Solo → Prop}
    (hw : Refundable st.folded w)
    (htaken : .ledgerIdempotencyKey (reversalKey w.id) ∈ st.view.keys → ∀ issued,
      DrawnSince st.issued issued [] →
        R (.integrityError .ledgerIdempotencyKey) { st with issued := issued, writes := [] })
    (hmisfit : .ledgerIdempotencyKey (reversalKey w.id) ∉ st.view.keys → ¬ varchar 50 code = true →
      ∀ issued, DrawnSince st.issued issued [] →
        R .dataError { st with issued := issued, writes := [] })
    (hdone : .ledgerIdempotencyKey (reversalKey w.id) ∉ st.view.keys → varchar 50 code = true →
      ∀ e set event issued, e.Reverses w → set.Fails → set.failureCode = some code →
        DrawnSince st.issued issued [e.debit.id, e.credit.id, event.id] →
        Q () { st with
          issued := issued
          writes := st.writes ++ (Transaction.compensated w.id [] e set event).writes }) :
    Solos (SagaRecovery.compensate w code) Q R st := by
  refine solos_compensate_flush hw.left fun e set event issued he hset hcode hdraws => ?_
  have hnone : DrawnSince st.issued issued [] :=
    ⟨hdraws.kept, fun id hid => (nomatch hid), fun id hid => (nomatch hid), .nil, hdraws.few⟩
  have hdebit : e.debit.id ∉ st.folded.issued := hdraws.fresh _ (by simp)
  have hcredit : e.credit.id ∉ st.folded.issued := hdraws.fresh _ (by simp)
  have hevent : event.id ∉ st.folded.issued := hdraws.fresh _ (by simp)
  have hne : e.debit.id ≠ e.credit.id :=
    fun heq => (List.nodup_cons.mp hdraws.nodup).1 (by simp [heq])
  have hfits : set.fits = varchar 50 code := by
    simp [WithdrawalSet.fits, hcode, hset.2.1]
  by_cases hkey : .ledgerIdempotencyKey (reversalKey w.id) ∈ st.view.keys
  · -- the credit is refused
    refine (solos_flush_error [.insert (.ledger e.debit)] _
      (e := .integrityError .ledgerIdempotencyKey) ?_ ?_).mpr (htaken hkey issued hnone)
    · exact ⟨verdict_reversal_debit hw he hdebit, trivial⟩
    · exact (verdict_reversal_credit hw he hcredit hne).trans (if_pos hkey)
  · by_cases hcodeFits : varchar 50 code = true
    · refine (solos_flush ?_).mpr (hdone hkey hcodeFits e set event issued he hset hcode hdraws)
      exact accepts_compensated hw he hdebit hcredit hne hevent hkey (hfits.trans hcodeFits)
    · -- the update of the withdrawal is refused
      refine (solos_flush_error
        [.insert (.ledger e.debit), .insert (.ledger e.credit), .insert (.outbox event)] _
        (e := .dataError) ?_ ?_).mpr (hmisfit hkey hcodeFits issued hnone)
      · exact ⟨verdict_reversal_debit hw he hdebit,
          (verdict_reversal_credit hw he hcredit hne).trans (if_neg hkey),
          verdict_reversal_event hw he hevent, trivial⟩
      · simp [Database.verdict, hfits, hcodeFits]

/-- How compensation ends, and the tables that it leaves behind. -/
def CompensationEnds (db : Database) (w : Withdrawal Decimal) (code : String)
    (out : Except Exc Unit) (db' : Database) : Prop :=
  if .ledgerIdempotencyKey (reversalKey w.id) ∈ db.keys then
    out = .error (.integrityError .ledgerIdempotencyKey) ∧ db' = db
  else if varchar 50 code = true then
    out = .ok () ∧ ∃ e set event,
      db' = db.applyAll (Transaction.compensated w.id [] e set event).writes ∧
      e.Reverses w ∧ set.Fails ∧ set.failureCode = some code
  else out = .error .dataError ∧ db' = db

/-- Compensation in a transaction of its own. -/
theorem solos_compensate (hw : Refundable st w) :
    Solos (begin (SagaRecovery.compensate w code))
      (fun u st' => CompensationEnds st.db w code (.ok u) st'.db)
      (fun e st' => CompensationEnds st.db w code (.error e) st'.db) st := by
  -- no transaction is open: the process sees the tables as they are
  have hview : st.view = st.db := by
    rw [Solo.view, hw.writes, Database.applyAll_nil]
  have hfolded : Refundable st.folded w := by
    rw [Solo.folded, hview, ← hw.writes]
    exact hw
  rw [solos_begin]
  refine solos_compensate_cases hfolded ?_ ?_ ?_
  · -- the key of the reversal is taken
    intro htaken issued _
    rw [hview] at htaken
    rw [CompensationEnds, if_pos htaken]
    exact ⟨rfl, rfl⟩
  · -- the code does not fit its column
    intro hfree hcode issued _
    rw [hview] at hfree
    rw [CompensationEnds, if_neg hfree, if_neg hcode]
    exact ⟨rfl, rfl⟩
  · -- the refund is committed
    intro hfree hcode e set event issued he hset hfailure _
    rw [hview] at hfree
    rw [CompensationEnds, if_neg hfree, if_pos hcode]
    refine ⟨rfl, e, set, event, ?_, he, hset, hfailure⟩
    rw [Solo.view, hw.writes, List.nil_append]

end Compensate

/-! ## The result -/

/-- Every withdrawal in the tables can be refunded, as far as its own values go. -/
theorem refundable (h : Reaches sha256 c) (hleft : IdentifiersLeft c.shared)
    {row : Withdrawal Ticks} (hrow : row ∈ c.shared.db.withdrawals) :
    Refundable c.solo row.loaded := by
  have hstored := withdrawal_stored h hrow
  have hamount : Ticks.ofDecimal row.loaded.amount = row.amount := Ticks.ofDecimal_toDecimal _
  have hrefers : c.shared.db.Refers (Row.withdrawal row) := by
    obtain ⟨t₀, h⟩ := h
    exact (refers h 0).2 _ (Database.mem_withdrawals.mp hrow)
  exact
    { amount := by
        rw [amountFits, hamount]
        exact decide_eq_true hstored.bounded
      positive := hamount ▸ hstored.positive
      currency := hstored.currency
      system := system_exists h
      account := hrefers _ (List.mem_singleton.mpr rfl)
      row := List.find?_isSome.mpr ⟨row, hrow, decide_eq_true rfl⟩
      names := within_issued h
      left := hleft
      writes := rfl }

/-- A ledger key is taken exactly if a leg carries it. -/
theorem mem_ledgerKeys {db : Database} {key : String} :
    .ledgerIdempotencyKey key ∈ db.keys ↔ ∃ l ∈ db.ledgerEntries, l.idempotencyKey = some key := by
  simp only [Database.keys, Database.ledgerEntries, List.mem_flatMap, List.mem_filterMap]
  constructor
  · rintro ⟨row, hrow, hkey⟩
    cases row with
    | ledger l => exact ⟨l, ⟨_, hrow, rfl⟩, by simpa [Row.keys] using hkey⟩
    | account a =>
        exfalso
        cases huser : a.userId <;> simp [Row.keys, huser] at hkey
    | _ => simp [Row.keys] at hkey
  · rintro ⟨l, ⟨row, hrow, hl⟩, hkey⟩
    cases row <;> cases hl
    exact ⟨_, hrow, by simp [Row.keys, hkey]⟩

/-- How compensation of a withdrawal ends in a state that the wallet can reach. -/
theorem compensation_ends (h : Reaches sha256 c) (hquiet : Quiet c)
    (hleft : IdentifiersLeft c.shared) {row : Withdrawal Ticks}
    (hrow : row ∈ c.shared.db.withdrawals) (code : String) :
    Wallet.Alone sha256 c (begin (SagaRecovery.compensate row.loaded code)) fun out w =>
      ∃ st, Solo.At c.size st w ∧ CompensationEnds c.shared.db row.loaded code out st.db :=
  alone_of_solos (fun out st => CompensationEnds c.shared.db row.loaded code out st.db)
    h hquiet (solos_compensate (refundable h hleft hrow))

/-- Running alone in a transaction of its own, compensation of a withdrawal ends in every state that
the wallet can reach. It commits the reversal exactly if no leg of the ledger carries the reversal
key and the failure code fits its column. -/
theorem compensation_commits_iff (h : Reaches sha256 c) (hquiet : Quiet c)
    (hleft : IdentifiersLeft c.shared) {row : Withdrawal Ticks}
    (hrow : row ∈ c.shared.db.withdrawals) (code : String) :
    Wallet.Alone sha256 c (begin (SagaRecovery.compensate row.loaded code))
        (fun out w => out = .ok () ∧ ∃ e set event,
          w.shared.db =
            c.shared.db.applyAll (Transaction.compensated row.id [] e set event).writes ∧
            e.Reverses row.loaded ∧ set.Fails ∧ set.failureCode = some code) ↔
      (∀ l ∈ c.shared.db.ledgerEntries, l.idempotencyKey ≠ some (reversalKey row.id)) ∧
        varchar 50 code = true := by
  have halone := compensation_ends h hquiet hleft hrow code
  have hkeys : .ledgerIdempotencyKey (reversalKey row.id) ∈ c.shared.db.keys ↔
      ¬ ∀ l ∈ c.shared.db.ledgerEntries, l.idempotencyKey ≠ some (reversalKey row.id) := by
    rw [mem_ledgerKeys]
    push Not
    rfl
  constructor
  · intro hcommits
    obtain ⟨out, w, ⟨hout, -⟩, st, -, hends⟩ := (Alone.and hcommits halone).exists_outcome
    by_contra hcondition
    -- otherwise the program raises
    unfold CompensationEnds at hends
    split at hends
    · cases hends.1.symm.trans hout
    · next hfree =>
      split at hends
      · next hcode => exact hcondition ⟨not_not.mp (mt hkeys.mpr hfree), hcode⟩
      · cases hends.1.symm.trans hout
  · rintro ⟨hfree, hcode⟩
    refine halone.mono fun out w hpost => ?_
    obtain ⟨st, hat, hends⟩ := hpost
    have hnot : .ledgerIdempotencyKey (reversalKey row.loaded.id) ∉ c.shared.db.keys :=
      fun htaken => hkeys.mp htaken hfree
    rw [CompensationEnds, if_neg hnot, if_pos hcode] at hends
    obtain ⟨hout, e, set, event, hdb, he, hset, hcode⟩ := hends
    exact ⟨hout, e, set, event, hat.db.trans hdb, he, hset, hcode⟩

/-- No transaction is open, and the withdrawal has been submitted and has no reversal legs. -/
def Unrefunded (c : Wallet) (row : Withdrawal Ticks) : Prop :=
  (∀ i < c.size, (c.sess i).locks = [] ∧ (c.sess i).writes.isEmpty = true) ∧
    IdentifiersLeft c.shared ∧ row.status = .submitted ∧ c.shared.db.reversalLegs row.id = []

/-- Whether a withdrawal is still unrefunded is decidable. -/
instance (c : Wallet) (row : Withdrawal Ticks) : Decidable (Unrefunded c row) :=
  inferInstanceAs (Decidable ((∀ i < _, _) ∧ _ ≤ _ ∧ _ ∧ _))

/-- While the withdrawal is compensated nothing else is going on. -/
theorem Unrefunded.quiet {row : Withdrawal Ticks} (h : Unrefunded c row) (hc : Reaches sha256 c) :
    Quiet c :=
  quiet_of_lt hc fun i hi => ⟨(h.1 i hi).1, List.isEmpty_iff.mp (h.1 i hi).2⟩

/-- Compensation refunds a submitted withdrawal. -/
theorem compensation_commits_iff_submitted : ∃ c, Reaches Sha256.hexdigest c ∧
    ∃ row ∈ c.shared.db.withdrawals, row.status = .submitted ∧
      Wallet.Alone Sha256.hexdigest c (begin (SagaRecovery.compensate row.loaded "TIMEOUT"))
        fun out _ => out = .ok () := by
  obtain ⟨c, hc, row, hrow, hunrefunded, hfree⟩ := reaches_of_played
    (P := fun c => ∃ row ∈ c.shared.db.withdrawals, Unrefunded c row ∧
      ∀ l ∈ c.shared.db.ledgerEntries, l.idempotencyKey ≠ some (reversalKey row.id))
    (show (played anyStep submittedSchedule).any _ = true by decide +kernel)
  exact ⟨c, hc, row, hrow, hunrefunded.2.2.1,
    ((compensation_commits_iff hc (hunrefunded.quiet hc) hunrefunded.2.1 hrow "TIMEOUT").mpr
      ⟨hfree, by decide +kernel⟩).mono fun out w h => h.1⟩

/-- After the withdrawal has been submitted, its user seeds an account with the reversal key. -/
def reversalSeededSchedule : Schedule :=
  submittedSchedule ++
    [.spawn (.request (.seed ⟨⟨1⟩, ⟨false, 1, 0⟩, reversalKey ⟨9⟩, ⟨1000⟩⟩))] ++ steps 3 13

/-- Then the withdrawal cannot be refunded. -/
theorem compensation_blocked : ¬ ∀ c, Reaches Sha256.hexdigest c → Quiet c →
    IdentifiersLeft c.shared → ∀ row ∈ c.shared.db.withdrawals,
      (row.status = .pending ∨ row.status = .submitted) → c.shared.db.reversalLegs row.id = [] →
        Wallet.Alone Sha256.hexdigest c (begin (SagaRecovery.compensate row.loaded "TIMEOUT"))
          fun out _ => out = .ok () := by
  intro hclaim
  obtain ⟨c, hc, row, hrow, hunrefunded, htaken⟩ := reaches_of_played
    (P := fun c => ∃ row ∈ c.shared.db.withdrawals, Unrefunded c row ∧
      .ledgerIdempotencyKey (reversalKey row.id) ∈ c.shared.db.keys)
    (show (played anyStep reversalSeededSchedule).any _ = true by decide +kernel)
  have hquiet := hunrefunded.quiet hc
  have hcommits := hclaim c hc hquiet hunrefunded.2.1 row hrow (.inr hunrefunded.2.2.1)
    hunrefunded.2.2.2
  obtain ⟨out, w, hout, st, -, hends⟩ :=
    (hcommits.and (compensation_ends hc hquiet hunrefunded.2.1 hrow "TIMEOUT")).exists_outcome
  have htaken : .ledgerIdempotencyKey (reversalKey row.loaded.id) ∈ c.shared.db.keys := htaken
  rw [CompensationEnds, if_pos htaken] at hends
  cases hends.1.symm.trans hout

end MiniWallet

import MiniWallet.Safety.TransactionalOutbox
import MiniWallet.Workers.ActivityConsumer

/-!
# The read model converges

The wallet publishes events, and the activity consumer is given them in any order, as often as it
takes, and may crash before it commits. `PipelineRun` interleaves both. In every such run the table
`transaction_activity` holds the lines of exactly those events that have been processed, so that
what it holds in the end does not depend on how the events were delivered.

* `EventEnvelope.lines`: the lines that an event stands for.
* `eventIds_nodup`: no two events share an event identifier.
* `Readable`: the consumer can read the event, and its rows pass the checks of the table.
* `read_model_converges`: the contents of the table, in every state of every run.
-/

namespace MiniWallet

open Numeric Process System State Python

variable {sha256 : String → String} {t₀ : Time} {ok : State → Event → Prop} {c : Wallet}

/-! ## Lines -/

/-- A line of the read model, in the words of an event. -/
structure ActivityLine where
  eventId : String
  account : String
  direction : Direction
  /-- The amount, if its text denotes a number. -/
  amount : Option Ticks
  currency : String
  entryType : String
  reference : Option String
  occurredAt : Time
deriving DecidableEq, Repr

/-- What a row of the table says. -/
def TransactionActivity.line (r : TransactionActivity Ticks) : ActivityLine where
  eventId := r.eventId.str
  account := r.accountId.str
  direction := r.direction
  amount := some r.amount
  currency := r.currency
  entryType := r.entryType
  reference := r.referenceId.map UUID.str
  occurredAt := r.occurredAt

/-- The line of a row has its event. -/
@[simp]
theorem TransactionActivity.line_eventId (r : TransactionActivity Ticks) :
    r.line.eventId = r.eventId.str := rfl

/-- The line of a row has its account. -/
@[simp]
theorem TransactionActivity.line_account (r : TransactionActivity Ticks) :
    r.line.account = r.accountId.str := rfl

/-- The amount that a column holds for the text of an amount. -/
def Ticks.ofText (amount : String) : Option Ticks :=
  (decimal (codePoints amount)).map Ticks.ofDecimal

/-- The lines that an event stands for: a debit and a credit for a completed transfer, a credit for
a seed, a deposit and the refund of a withdrawal, a debit for a withdrawal, and nothing
otherwise. -/
def EventEnvelope.lines (e : EventEnvelope) : List ActivityLine :=
  match e.payload with
  | .transferCompleted p =>
      [⟨e.eventId, p.fromAccountId, .debit, Ticks.ofText p.amount, p.currency, p.entryType,
          some p.transferId, e.occurredAt⟩,
        ⟨e.eventId, p.toAccountId, .credit, Ticks.ofText p.amount, p.currency, p.entryType,
          some p.transferId, e.occurredAt⟩]
  | .seedCompleted p =>
      [⟨e.eventId, p.accountId, .credit, Ticks.ofText p.amount, p.currency, p.entryType, none,
        e.occurredAt⟩]
  | .depositCompleted p =>
      [⟨e.eventId, p.accountId, .credit, Ticks.ofText p.amount, p.currency, p.entryType,
        some p.depositId, e.occurredAt⟩]
  | .withdrawalInitiated p =>
      [⟨e.eventId, p.accountId, .debit, Ticks.ofText p.amount, p.currency, p.entryType,
        some p.withdrawalId, e.occurredAt⟩]
  | .withdrawalFailed p =>
      [⟨e.eventId, p.accountId, .credit, Ticks.ofText p.amount, p.currency, p.entryType,
        some p.withdrawalId, e.occurredAt⟩]
  | .transferFailed _ | .accountOpened _ | .depositRejected _ | .withdrawalCompleted _ => []

/-- The lines of an event carry its identifier. -/
theorem EventEnvelope.eventId_of_mem {e : EventEnvelope} {l : ActivityLine} (h : l ∈ e.lines) :
    l.eventId = e.eventId := by
  unfold lines at h
  split at h <;> simp only [List.mem_cons, List.not_mem_nil, or_false] at h
  · rcases h with rfl | rfl <;> rfl
  all_goals
    subst h
    rfl

/-! ## Event identifiers -/

/-- The event of a transaction carries an identifier that was drawn for it. -/
theorem Narrated.eventId {σ : Session} {T : Transaction} (h : Narrated σ T) :
    ∀ o ∈ T.events, ∃ id ∈ σ.drawn, o.payload.eventId = id.str := by
  intro o ho
  cases h with
  | empty | submitted => cases ho
  | reserved hevent | opened _ hevent | seeded _ hevent | transferFailed _ hevent
  | transferred _ hevent | depositRejected _ hevent | deposited _ hevent | compensated _ hevent
  | completed _ _ hevent =>
      obtain rfl := List.mem_singleton.mp ho
      exact hevent.eventId

/-- The event identifiers in the outbox are tracked. -/
theorem tracked_eventIds :
    Tracked sha256 t₀ ok fun db id => ∃ o ∈ db.outbox, o.payload.eventId = id.str where
  init := fun id ⟨o, ho, _⟩ => nomatch ho
  commit := by
    rintro c i T hT id ⟨o, ho, hid⟩
    rw [Database.outbox_post, List.mem_append] at ho
    rcases ho with ho | ho
    · obtain ⟨id', hdrawn, hid'⟩ := hT.narrated.eventId o ho
      exact .inl (UUID.str_injective (hid'.symm.trans hid) ▸ hdrawn)
    · exact .inr ⟨o, ho, hid⟩

/-- In every run, no two events of the outbox share an event identifier. -/
theorem eventIds_nodup (h : WalletRun sha256 t₀ ok c) :
    (c.shared.db.outbox.map (·.payload.eventId)).Nodup := by
  refine database_invariant (P := fun db => (db.outbox.map (·.payload.eventId)).Nodup) .nil ?_ h
  intro c i T hT hP
  rw [Database.outbox_post, List.map_append]
  refine List.Nodup.append ?_ hP ?_
  · cases T <;> simp [Transaction.events]
  · intro eventId hnew hold
    obtain ⟨o, ho, rfl⟩ := List.mem_map.mp hnew
    obtain ⟨o', ho', heq⟩ := List.mem_map.mp hold
    obtain ⟨id, hdrawn, hid⟩ := hT.narrated.eventId o ho
    exact tracked_eventIds.fresh hT.run hdrawn ⟨o', ho', heq.trans hid⟩

/-! ## Amounts as text -/

/-- The text of an amount is read as the number `d`. -/
def Denotes (amount : String) (d : Decimal) : Prop := decimal (codePoints amount) = some d

/-- A text that denotes an amount is stored as this amount. -/
theorem Denotes.ofText {amount : String} {d : Decimal} (h : Denotes amount d) :
    Ticks.ofText amount = some (Ticks.ofDecimal d) := by
  rw [Ticks.ofText, h, Option.map_some]

/-- An amount that was printed with four places is read as the rounded amount. -/
theorem denotes_money (d : Decimal) :
    Denotes (money d) ⟨d.negative, d.roundHalfEvenAbs moneyPlaces, -moneyPlaces⟩ :=
  decimal_formatFixed (by decide) d

/-- What a column holds of an amount that was printed with four places. -/
theorem ofText_money (d : Decimal) :
    Ticks.ofText (money d) = some (d.roundHalfEven moneyPlaces) := by
  rw [(denotes_money d).ofText, Ticks.ofDecimal, Decimal.roundHalfAway_scaled,
    Decimal.roundHalfEven,
    Decimal.sign]
  split <;> simp

/-- An amount that was written out is read back. -/
theorem denotes_str (d : Decimal) : Denotes d.str d := decimal_str d

/-- What fits the column of the ledger fits the column of the read model after printing. -/
theorem amountFits_money {d : Decimal} (h : amountFits d) :
    amountFits ⟨d.negative, d.roundHalfEvenAbs moneyPlaces, -moneyPlaces⟩ := by
  have h' : (d.roundHalfAway moneyPlaces).natAbs < 10 ^ 19 := of_decide_eq_true h
  have hle := d.roundHalfEvenAbs_le moneyPlaces
  refine decide_eq_true ?_
  rw [Ticks.ofDecimal, Decimal.roundHalfAway_scaled]
  split <;> omega

/-! ## Readable events -/

open ActivityConsumer in
/-- The consumer reads the event as the given rows, which pass the checks of the table. -/
structure Readable (db : Database) (e : EventEnvelope) (rows : List (TransactionActivity Decimal)) :
    Prop where
  parsed : parseEvent e = some (some e.payload)
  read : activities e (some e.payload) = .ok rows
  lines : rows.map (·.stored.line) = e.lines
  fits : ∀ r ∈ rows, r.fits
  accounts : ∀ r ∈ rows, (db.accountById r.accountId).isSome
  distinct : (rows.map (·.key)).Nodup

open ActivityConsumer in
/-- A row is read as it was meant. -/
theorem activity_ok {e : EventEnvelope} {id account : UUID} {reference : Option UUID}
    {amount currency entryType : String} {d : Decimal} {direction : Direction}
    (hid : e.eventId = id.str) (hamount : Denotes amount d) :
    activity e account.str direction amount currency entryType (reference.map UUID.str) =
      .ok ⟨id, account, direction, d, currency, entryType, reference, e.occurredAt⟩ := by
  have huuid (u : UUID) : toUUID u.str = .ok u := by
    rw [toUUID, UUID.parse_str]
  have hdecimal : toDecimal amount = .ok d := by
    rw [toDecimal, hamount]
  have hreference : (reference.map UUID.str).mapM toUUID = .ok reference := by
    cases reference with
    | none => rfl
    | some u =>
        simp only [Option.map_some, Option.mapM_some, huuid]
        rfl
  rw [activity, hid, huuid, huuid, hdecimal, hreference]
  rfl

section Readable

variable {db : Database} {e : EventEnvelope}

/-- An event without lines is readable. -/
theorem readable_nothing (hparsed : parseEvent e = some (some e.payload))
    (hread : ActivityConsumer.activities e (some e.payload) = .ok []) (hlines : e.lines = []) :
    ∃ rows, Readable db e rows :=
  ⟨[], hparsed, hread, hlines.symm, fun _ hr => (nomatch hr), fun _ hr => (nomatch hr), .nil⟩

variable {id account : UUID} {amount currency entryType : String}
  {d : Decimal}

open ActivityConsumer in
/-- An event with one line is readable, if the row passes the checks. -/
theorem readable_single (direction : Direction) (reference : Option UUID)
    (hparsed : parseEvent e = some (some e.payload))
    (hread : activities e (some e.payload) = do
      return [← activity e account.str direction amount currency entryType
        (reference.map UUID.str)])
    (hlines : e.lines = [⟨e.eventId, account.str, direction, Ticks.ofText amount, currency,
      entryType, reference.map UUID.str, e.occurredAt⟩])
    (hid : e.eventId = id.str) (hamount : Denotes amount d) (hfits : amountFits d)
    (hcurrency : varchar 3 currency) (htype : varchar 30 entryType)
    (haccount : (db.accountById account).isSome) : ∃ rows, Readable db e rows := by
  rw [activity_ok hid hamount] at hread
  refine ⟨_, hparsed, hread, ?_, ?_, ?_, List.nodup_singleton _⟩
  · -- the stored row is the line of the event
    rw [hlines, hid, hamount.ofText]
    rfl
  · -- its values fit
    intro r hr
    obtain rfl := List.mem_singleton.mp hr
    simp [TransactionActivity.fits, hfits, hcurrency, htype]
  · -- its account exists
    intro r hr
    obtain rfl := List.mem_singleton.mp hr
    exact haccount

open ActivityConsumer in
/-- An event with a debit and a credit of different accounts is readable, if the rows pass the
checks. -/
theorem readable_pair {source target : UUID} (reference : Option UUID)
    (hparsed : parseEvent e = some (some e.payload))
    (hread : activities e (some e.payload) = do
      let debitActivity ← activity e source.str .debit amount currency entryType
        (reference.map UUID.str)
      let creditActivity ← activity e target.str .credit amount currency entryType
        (reference.map UUID.str)
      return [debitActivity, creditActivity])
    (hlines : e.lines =
      [⟨e.eventId, source.str, .debit, Ticks.ofText amount, currency, entryType,
          reference.map UUID.str, e.occurredAt⟩,
        ⟨e.eventId, target.str, .credit, Ticks.ofText amount, currency, entryType,
          reference.map UUID.str, e.occurredAt⟩])
    (hid : e.eventId = id.str) (hamount : Denotes amount d) (hfits : amountFits d)
    (hcurrency : varchar 3 currency) (htype : varchar 30 entryType) (hdifferent : source ≠ target)
    (hsource : (db.accountById source).isSome) (htarget : (db.accountById target).isSome) :
    ∃ rows, Readable db e rows := by
  -- both legs are read, and differ in the account and the direction only
  rw [activity_ok hid hamount, activity_ok hid hamount] at hread
  refine ⟨_, hparsed, hread, ?_, ?_, ?_, ?_⟩
  · rw [hlines, hid, hamount.ofText]
    rfl
  · simp only [List.mem_cons, List.not_mem_nil, or_false]
    rintro r (rfl | rfl) <;> simp [TransactionActivity.fits, hfits, hcurrency, htype]
  · -- the foreign keys of the two rows
    simp only [List.mem_cons, List.not_mem_nil, or_false]
    rintro r (rfl | rfl)
    · exact hsource
    · exact htarget
  · simpa [TransactionActivity.key] using hdifferent

/-- An event stays readable when accounts are added. -/
theorem Readable.mono {db' : Database} {rows : List (TransactionActivity Decimal)}
    (h : Readable db e rows) (haccounts : ∀ a ∈ db.accounts, a ∈ db'.accounts) :
    Readable db' e rows := by
  refine { h with accounts := fun r hr => ?_ }
  obtain ⟨a, ha, hid⟩ := db.accountById_isSome.mp (h.accounts r hr)
  exact db'.accountById_isSome.mpr ⟨a, haccounts a ha, hid⟩

end Readable

/-- What was published under its type is parsed. -/
theorem OutboxRow.Publishes.parsed {o : OutboxRow} {drawn : List UUID} {payload : EventPayload}
    (h : o.Publishes drawn payload) : parseEvent o.payload = some (some o.payload.payload) := by
  rw [parseEvent, h.envelopeType, h.payload, parsePayload_modelDump]

/-- What Postgres has checked about the legs of a transaction. -/
theorem Commits.entry_facts {i : ℕ} {T : Transaction} (hT : Commits sha256 t₀ ok c i T)
    {e : Entry Decimal} (he : e ∈ T.entries) :
    amountFits e.movement.amount ∧ varchar 3 e.movement.currency ∧
      ((c.shared.db.applyAll T.writes).accountById e.movement.source).isSome ∧
      ((c.shared.db.applyAll T.writes).accountById e.movement.target).isSome := by
  obtain ⟨hdebit, hcredit⟩ := hT.insert_legs he
  have hfits : (Row.ledger e.debit).fits = true :=
    inserted_of_mem (P := fun row => row.fits = true) (fun _ _ _ hrow => hrow.fits) hT.run hdebit
  simp only [Row.fits, Bool.and_eq_true, e.double.debit_amount, e.double.debit_currency] at hfits
  have hview : view c.toWorld i = c.shared.db.applyAll T.writes := by
    rw [view, hT.writes]
  have hsource := (refers hT.run i).1 _ hdebit _ (List.mem_singleton_self _)
  have htarget := (refers hT.run i).1 _ hcredit _ (List.mem_singleton_self _)
  rw [hview] at hsource htarget
  rw [e.double.debit_account] at hsource
  rw [e.double.credit_account] at htarget
  exact ⟨hfits.1.1, hfits.1.2, hsource, htarget⟩

/-- The two parties of a transfer are different accounts. -/
theorem Commits.different_accounts {i : ℕ} {t : Transfer Decimal} {e : Entry Decimal}
    {event : OutboxRow} (hT : Commits sha256 t₀ ok c i (.transferred t e event)) :
    t.fromAccountId ≠ t.toAccountId := by
  have hchecks := checks_of_inserted hT.run
    (hT.writes ▸ by simp [Transaction.writes] : .insert (.transfer t) ∈ (c.sess i).writes)
  simp only [Row.stored, Row.map, Row.failedCheck?] at hchecks
  intro heq
  rw [if_pos (show (t.map Ticks.ofDecimal).fromAccountId = (t.map Ticks.ofDecimal).toAccountId
    from heq)] at hchecks
  cases hchecks

/-- The event of a transaction is readable. -/
theorem Commits.readable {i : ℕ} {T : Transaction} (hT : Commits sha256 t₀ ok c i T) :
    ∀ o ∈ T.events, ∃ rows, Readable (c.shared.db.applyAll T.writes) o.payload rows := by
  intro o ho
  have hjustified := hT.justified
  cases hT.narrated with
  | empty | submitted => cases ho
  -- these events have no rows
  | opened _ hevent | transferFailed _ hevent | depositRejected _ hevent | completed _ _ hevent =>
      obtain rfl := List.mem_singleton.mp ho
      refine readable_nothing hevent.parsed ?_ ?_
      · rw [hevent.payload]
        rfl
      · rw [EventEnvelope.lines, hevent.payload]
  -- the other ones have a row for each leg of their entry, and the entry was checked
  | seeded _ hevent =>
      obtain rfl := List.mem_singleton.mp ho
      obtain ⟨hfits, hcurrency, -, haccount⟩ := hT.entry_facts (List.mem_singleton_self _)
      obtain ⟨id, -, hid⟩ := hevent.eventId
      refine readable_single .credit none hevent.parsed ?_ ?_ hid (denotes_money _)
        (amountFits_money hfits) hcurrency (by decide : varchar 30 "seed") haccount
      · rw [hevent.payload]
        rfl
      · rw [EventEnvelope.lines, hevent.payload]
        rfl
  | @transferred t e _ _ hevent =>
      obtain rfl := List.mem_singleton.mp ho
      obtain ⟨hfits, hcurrency, hsource, htarget⟩ := hT.entry_facts (List.mem_singleton_self _)
      obtain ⟨id, -, hid⟩ := hevent.eventId
      -- the two legs of a transfer have different keys
      have hdifferent := hT.different_accounts
      cases hjustified with
      | transferred _ _ _ hmove =>
          rw [hmove] at hfits hcurrency hsource htarget
          refine readable_pair (some t.id) hevent.parsed ?_ ?_ hid (denotes_money _)
            (amountFits_money hfits) hcurrency (by decide : varchar 30 "transfer") hdifferent
            hsource htarget
          · rw [hevent.payload]
            rfl
          · rw [EventEnvelope.lines, hevent.payload]
            rfl
  | @deposited d e _ _ _ hevent =>
      obtain rfl := List.mem_singleton.mp ho
      obtain ⟨hfits, hcurrency, -, haccount⟩ := hT.entry_facts (List.mem_singleton_self _)
      obtain ⟨id, -, hid⟩ := hevent.eventId
      cases hjustified with
      | deposited _ _ _ hmove =>
          rw [hmove] at hfits hcurrency haccount
          refine readable_single .credit (some d.id) hevent.parsed ?_ ?_ hid
            (denotes_str _) hfits hcurrency (by decide : varchar 30 "deposit") haccount
          · rw [hevent.payload]
            rfl
          · rw [EventEnvelope.lines, hevent.payload]
            rfl
  | @reserved w e _ hevent =>
      obtain rfl := List.mem_singleton.mp ho
      obtain ⟨hfits, hcurrency, haccount, -⟩ := hT.entry_facts (List.mem_singleton_self _)
      obtain ⟨id, -, hid⟩ := hevent.eventId
      cases hjustified with
      | reserved _ _ _ _ _ hmove =>
          rw [hmove] at hfits hcurrency haccount
          refine readable_single .debit (some w.id) hevent.parsed ?_ ?_ hid (denotes_money _)
            (amountFits_money hfits) hcurrency (by decide : varchar 30 "withdrawal") haccount
          · rw [hevent.payload]
            rfl
          · rw [EventEnvelope.lines, hevent.payload]
            rfl
  | @compensated withdrawalId _ e _ _ _ _ hevent =>
      obtain rfl := List.mem_singleton.mp ho
      obtain ⟨hfits, hcurrency, -, haccount⟩ := hT.entry_facts (List.mem_singleton_self _)
      obtain ⟨id, -, hid⟩ := hevent.eventId
      refine readable_single .credit (some withdrawalId) hevent.parsed ?_ ?_ hid (denotes_money _)
        (amountFits_money hfits) hcurrency (by decide : varchar 30 "withdrawal_reversal") haccount
      · rw [hevent.payload]
        rfl
      · rw [EventEnvelope.lines, hevent.payload]
        rfl

/-- In every run, every event of the outbox is readable. -/
theorem outbox_readable (h : WalletRun sha256 t₀ ok c) :
    ∀ o ∈ c.shared.db.outbox, ∃ rows, Readable c.shared.db o.payload rows := by
  refine database_invariant (P := fun db => ∀ o ∈ db.outbox, ∃ rows, Readable db o.payload rows)
    (fun o ho => nomatch ho) ?_ h
  intro c i T hT hP o ho
  rw [Database.outbox_post, List.mem_append] at ho
  rcases ho with ho | ho
  · exact hT.readable o ho
  · obtain ⟨rows, hrows⟩ := hP o ho
    refine ⟨rows, hrows.mono fun a ha => ?_⟩
    rw [Database.accounts_post]
    exact List.mem_append_right _ ha

/-- The outbox only grows. -/
theorem outbox_suffix (h : WalletRun sha256 t₀ ok c) {c' : Wallet}
    (hrun : (wallet sha256).Run ok c c') : c.shared.db.outbox <:+ c'.shared.db.outbox := by
  refine database_monotone (R := fun db db' => db.outbox <:+ db'.outbox)
    (fun _ => List.suffix_refl _) (fun h h' => h.trans h') (fun {c i T} _ => ?_) h hrun
  rw [Database.outbox_post]
  exact List.suffix_append ..

/-! ## One delivery -/

namespace ActivityConsumer

variable {db : Database} {table : Table} {e : EventEnvelope}
  {rows : List (TransactionActivity Decimal)}

/-- Rows with new keys are all inserted. -/
theorem foldlM_insert (hfits : ∀ r ∈ rows, r.fits)
    (haccounts : ∀ r ∈ rows, (db.accountById r.accountId).isSome)
    (hdistinct : (rows.map (·.key)).Nodup) (hnew : ∀ r ∈ rows, r.key ∉ table.map (·.key)) :
    rows.foldlM (insert db) table = .ok ((rows.map (·.stored)).reverse ++ table) := by
  induction rows generalizing table with
  | nil => rfl
  | cons r rows ih =>
      rw [List.map_cons, List.nodup_cons] at hdistinct
      -- the first row is inserted, since its key is new
      have hinsert : insert db table r = .ok (r.stored :: table) := by
        have haccount := haccounts r List.mem_cons_self
        rw [insert, hfits r List.mem_cons_self, if_neg (by simp),
          if_neg (hnew r List.mem_cons_self),
          if_neg (by simpa [Option.isSome_iff_ne_none] using haccount)]
      -- and its key is none of the others
      have hrest : ∀ r' ∈ rows, r'.key ∉ (r.stored :: table).map (·.key) := by
        intro r' hr'
        rw [List.map_cons, List.mem_cons, not_or]
        refine ⟨fun heq => hdistinct.1 ?_, hnew r' (List.mem_cons_of_mem _ hr')⟩
        exact List.mem_map.mpr ⟨r', hr', heq⟩
      rw [List.foldlM_cons, hinsert]
      refine (ih (fun r' hr' => hfits r' (List.mem_cons_of_mem _ hr'))
        (fun r' hr' => haccounts r' (List.mem_cons_of_mem _ hr')) hdistinct.2 hrest).trans ?_
      simp

/-- Rows that fit are all inserted, or a constraint is violated. -/
theorem foldlM_insert_cases (hfits : ∀ r ∈ rows, r.fits) (table : Table) :
    (∃ table', rows.foldlM (insert db) table = .ok table') ∨
      rows.foldlM (insert db) table = .error .integrityError := by
  induction rows generalizing table with
  | nil => exact .inl ⟨table, rfl⟩
  | cons r rows ih =>
      -- a row that fits is inserted, or its account or its key is refused
      have hinsert : (∃ table', insert db table r = .ok table') ∨
          insert db table r = .error .integrityError := by
        rw [insert, hfits r List.mem_cons_self, if_neg (by simp)]
        split_ifs
        · exact .inr rfl
        · exact .inr rfl
        · exact .inl ⟨_, rfl⟩
      rw [List.foldlM_cons]
      rcases hinsert with ⟨table', hinsert⟩ | hinsert
      · rw [hinsert]
        exact ih (fun r' hr' => hfits r' (List.mem_cons_of_mem _ hr')) table'
      · rw [hinsert]
        exact .inr rfl

/-- The consumer raises on no readable event, whatever its table holds. -/
theorem process_readable (h : Readable db e rows) (table : Table) :
    ∃ table', process db table e = .ok table' := by
  have htransaction : transaction db table e (some e.payload) = rows.foldlM (insert db) table := by
    rw [transaction, h.read]
    rfl
  rw [process, h.parsed]
  dsimp only
  rw [htransaction]
  rcases foldlM_insert_cases h.fits table with ⟨table', hrows⟩ | hrows
  · rw [hrows]
    exact ⟨table', rfl⟩
  · rw [hrows]
    exact ⟨table, rfl⟩

/-- An event whose keys are new adds its rows. -/
theorem process_new (h : Readable db e rows) (hnew : ∀ r ∈ rows, r.key ∉ table.map (·.key)) :
    process db table e = .ok ((rows.map (·.stored)).reverse ++ table) := by
  have htransaction : transaction db table e (some e.payload) =
      .ok ((rows.map (·.stored)).reverse ++ table) := by
    rw [transaction, h.read]
    exact foldlM_insert h.fits h.accounts h.distinct hnew
  rw [process, h.parsed]
  dsimp only
  rw [htransaction]

/-- An event whose keys are taken is ignored. -/
theorem process_known (h : Readable db e rows) (hknown : ∀ r ∈ rows, r.key ∈ table.map (·.key)) :
    process db table e = .ok table := by
  cases rows with
  | nil => exact process_new h fun r hr => nomatch hr
  | cons r rows =>
      have hinsert : insert db table r = .error .integrityError := by
        rw [insert, h.fits r List.mem_cons_self, if_neg (by simp),
          if_pos (hknown r List.mem_cons_self)]
      have htransaction : transaction db table e (some e.payload) = .error .integrityError := by
        rw [transaction, h.read]
        change (r :: rows).foldlM (insert db) table = _
        rw [List.foldlM_cons, hinsert]
        rfl
      rw [process, h.parsed]
      dsimp only
      rw [htransaction]

end ActivityConsumer

/-! ## Runs of the pipeline -/

/-- The wallet together with its read model. -/
structure Pipeline where
  wallet : Wallet
  /-- The table `transaction_activity`. -/
  table : ActivityConsumer.Table
  /-- The events that the consumer has processed, duplicates included. -/
  delivered : List EventEnvelope

/-- The outbox of the wallet. -/
abbrev Pipeline.outbox (p : Pipeline) : List OutboxRow := p.wallet.shared.db.outbox

/-- `PipelineRun sha256 t₀ ok p`: the pipeline gets from the migrated database to `p`, by any
interleaving of the wallet and deliveries of its events, in which the steps of the wallet all
satisfy `ok`. -/
inductive PipelineRun (sha256 : String → String) (t₀ : Time) (ok : State → Event → Prop) :
    Pipeline → Prop
  | start : PipelineRun sha256 t₀ ok ⟨(wallet sha256).initial (.initial t₀), [], []⟩
  | wallet {p : Pipeline} {l : Event} {c' : Wallet} : PipelineRun sha256 t₀ ok p →
      ok p.wallet.toWorld l → (wallet sha256).Step p.wallet l c' →
      PipelineRun sha256 t₀ ok { p with wallet := c' }
  | processed {p : Pipeline} {o : OutboxRow} {table : ActivityConsumer.Table} :
      PipelineRun sha256 t₀ ok p → o ∈ p.outbox →
      ActivityConsumer.process p.wallet.shared.db p.table o.payload = .ok table →
      PipelineRun sha256 t₀ ok { p with table := table, delivered := o.payload :: p.delivered }
  /-- The consumer stops before its commit, and the event has to be delivered again. -/
  | crashed {p : Pipeline} {o : OutboxRow} : PipelineRun sha256 t₀ ok p → o ∈ p.outbox →
      PipelineRun sha256 t₀ ok p

/-- What the wallet does in the pipeline is a run of the wallet. -/
theorem PipelineRun.walletRun {p : Pipeline} (h : PipelineRun sha256 t₀ ok p) :
    WalletRun sha256 t₀ ok p.wallet := by
  induction h with
  | start => exact .refl
  | wallet _ hl hs ih => exact .step ih hl hs
  | processed _ _ _ ih => exact ih
  | crashed _ _ ih => exact ih

/-- Rows say the same only if they have the same key. -/
theorem TransactionActivity.key_of_line {r r' : TransactionActivity Ticks} (h : r.line = r'.line) :
    r.key = r'.key := by
  have hevent := congrArg ActivityLine.eventId h
  have haccount := congrArg ActivityLine.account h
  rw [line_eventId, line_eventId] at hevent
  rw [line_account, line_account] at haccount
  rw [key, key, UUID.str_injective hevent, UUID.str_injective haccount]

namespace Pipeline

/-- The events that have been processed. -/
def processed (p : Pipeline) : List OutboxRow := p.outbox.filter (·.payload ∈ p.delivered)

/-- The read model holds the lines of exactly the events that have been processed. -/
structure Converged (p : Pipeline) : Prop where
  published : ∀ e ∈ p.delivered, ∃ o ∈ p.outbox, o.payload = e
  contents : (p.table.map (·.line)).Perm (p.processed.flatMap (·.payload.lines))

variable {p : Pipeline}

/-- Events of the outbox with the same event identifier are equal. -/
theorem eq_of_eventId (h : PipelineRun sha256 t₀ ok p) {o o' : OutboxRow} (ho : o ∈ p.outbox)
    (ho' : o' ∈ p.outbox) (heq : o.payload.eventId = o'.payload.eventId) : o = o' :=
  List.inj_on_of_nodup_map (eventIds_nodup h.walletRun) ho ho' heq

/-- The rows of an event have keys of the table exactly if the event has been processed. -/
theorem Converged.key_mem_iff (hp : p.Converged) (h : PipelineRun sha256 t₀ ok p) {o : OutboxRow}
    (ho : o ∈ p.outbox) {rows : List (TransactionActivity Decimal)}
    (hrows : Readable p.wallet.shared.db o.payload rows) {r : TransactionActivity Decimal}
    (hr : r ∈ rows) : r.key ∈ p.table.map (·.key) ↔ o.payload ∈ p.delivered := by
  have hline : r.stored.line ∈ o.payload.lines := by
    rw [← hrows.lines]
    exact List.mem_map.mpr ⟨r, hr, rfl⟩
  constructor
  · intro hkey
    obtain ⟨r', hr', hkey'⟩ := List.mem_map.mp hkey
    have hmem := hp.contents.mem_iff.mp (List.mem_map_of_mem hr')
    obtain ⟨o', ho', hline'⟩ := List.mem_flatMap.mp hmem
    obtain ⟨hout, hdelivered⟩ := List.mem_filter.mp ho'
    -- the row in the table belongs to an event with the same identifier
    have heventId : o'.payload.eventId = o.payload.eventId := by
      have hsame : r'.eventId = r.stored.eventId := congrArg Prod.fst hkey'
      rw [← EventEnvelope.eventId_of_mem hline', ← EventEnvelope.eventId_of_mem hline,
        TransactionActivity.line_eventId, TransactionActivity.line_eventId, hsame]
    rw [← eq_of_eventId h hout ho heventId]
    exact of_decide_eq_true hdelivered
  · intro hdelivered
    have hmem : r.stored.line ∈ p.table.map (·.line) := by
      refine hp.contents.mem_iff.mpr (List.mem_flatMap.mpr ⟨o, ?_, hline⟩)
      exact List.mem_filter.mpr ⟨ho, decide_eq_true hdelivered⟩
    obtain ⟨r', hr', hline'⟩ := List.mem_map.mp hmem
    exact List.mem_map.mpr ⟨r', hr', TransactionActivity.key_of_line hline'⟩

/-- A duplicate changes nothing. -/
theorem Converged.duplicate (hp : p.Converged) (h : PipelineRun sha256 t₀ ok p) {o : OutboxRow}
    (ho : o ∈ p.outbox) (hdelivered : o.payload ∈ p.delivered) :
    ActivityConsumer.process p.wallet.shared.db p.table o.payload = .ok p.table := by
  obtain ⟨rows, hrows⟩ := outbox_readable h.walletRun o ho
  exact ActivityConsumer.process_known hrows fun r hr =>
    (hp.key_mem_iff h ho hrows hr).mpr hdelivered

/-- An event that has not been processed adds its lines. -/
theorem Converged.first (hp : p.Converged) (h : PipelineRun sha256 t₀ ok p) {o : OutboxRow}
    (ho : o ∈ p.outbox) (hnew : o.payload ∉ p.delivered) :
    ∃ table, ActivityConsumer.process p.wallet.shared.db p.table o.payload = .ok table ∧
      (table.map (·.line)).Perm (o.payload.lines ++ p.table.map (·.line)) := by
  obtain ⟨rows, hrows⟩ := outbox_readable h.walletRun o ho
  refine ⟨_, ActivityConsumer.process_new hrows fun r hr hkey =>
    hnew ((hp.key_mem_iff h ho hrows hr).mp hkey), ?_⟩
  rw [List.map_append, List.map_reverse, List.map_map, ← hrows.lines]
  exact (List.reverse_perm _).append_right _

/-- Processing one more event. -/
theorem processed_cons (h : PipelineRun sha256 t₀ ok p) {o : OutboxRow} (ho : o ∈ p.outbox)
    (hnew : o.payload ∉ p.delivered) :
    (p.outbox.filter (·.payload ∈ o.payload :: p.delivered)).Perm (o :: p.processed) := by
  have hnodup : p.outbox.Nodup := (eventIds_nodup h.walletRun).of_map
  have hnot : o ∉ p.processed := fun hmem => hnew (of_decide_eq_true (List.mem_filter.mp hmem).2)
  rw [List.perm_ext_iff_of_nodup (hnodup.filter _) (List.nodup_cons.mpr ⟨hnot, hnodup.filter _⟩)]
  intro x
  simp only [processed, List.mem_filter, List.mem_cons, decide_eq_true_eq]
  constructor
  · rintro ⟨hx, heq | hdelivered⟩
    · exact .inl (eq_of_eventId h hx ho (congrArg EventEnvelope.eventId heq))
    · exact .inr ⟨hx, hdelivered⟩
  · rintro (rfl | ⟨hx, hdelivered⟩)
    · exact ⟨ho, .inl rfl⟩
    · exact ⟨hx, .inr hdelivered⟩

/-- In every run of the pipeline the read model holds the lines of exactly the events that have been
processed. -/
theorem converged (h : PipelineRun sha256 t₀ ok p) : p.Converged := by
  induction h with
  | start => exact ⟨fun e he => (nomatch he), .refl _⟩
  | @wallet p l c' hrun hl hs ih =>
      obtain ⟨new, hnew⟩ := outbox_suffix hrun.walletRun (.step .refl hl hs)
      have hnodup := eventIds_nodup (.step hrun.walletRun hl hs)
      -- what the wallet adds has not been delivered
      have hfilter : new.filter (·.payload ∈ p.delivered) = [] := by
        refine List.filter_eq_nil_iff.mpr fun o ho => ?_
        rw [decide_eq_true_eq]
        intro hdelivered
        obtain ⟨o', ho', heq⟩ := ih.published o.payload hdelivered
        rw [← hnew, List.map_append] at hnodup
        refine List.disjoint_of_nodup_append hnodup (List.mem_map_of_mem ho) ?_
        rw [← heq]
        exact List.mem_map_of_mem ho'
      have hprocessed : c'.shared.db.outbox.filter (·.payload ∈ p.delivered) = p.processed := by
        rw [processed, ← hnew, List.filter_append, hfilter, List.nil_append]
      refine ⟨fun e he => ?_, ?_⟩
      · obtain ⟨o, ho, heq⟩ := ih.published e he
        refine ⟨o, ?_, heq⟩
        dsimp only [outbox]
        rw [← hnew]
        exact List.mem_append_right _ ho
      · have hcontents := ih.contents
        rw [← hprocessed] at hcontents
        exact hcontents
  | @processed p o table hrun ho hprocess ih =>
      refine ⟨fun e he => ?_, ?_⟩
      · rcases List.mem_cons.mp he with rfl | he
        · exact ⟨o, ho, rfl⟩
        · exact ih.published e he
      · by_cases hdelivered : o.payload ∈ p.delivered
        · rw [ih.duplicate hrun ho hdelivered] at hprocess
          cases hprocess
          have hsame : p.outbox.filter (·.payload ∈ o.payload :: p.delivered) = p.processed := by
            refine List.filter_congr fun x _ => ?_
            refine decide_eq_decide.mpr ⟨fun hx => ?_, fun hx => List.mem_cons_of_mem _ hx⟩
            rcases List.mem_cons.mp hx with heq | hx
            · rwa [heq]
            · exact hx
          have hcontents := ih.contents
          rw [← hsame] at hcontents
          exact hcontents
        · obtain ⟨table', hprocess', hcontents⟩ := ih.first hrun ho hdelivered
          rw [hprocess'] at hprocess
          cases hprocess
          have hlines := (processed_cons hrun ho hdelivered).flatMap_right (·.payload.lines)
          exact hcontents.trans ((ih.contents.append_left _).trans hlines.symm)
  | crashed _ _ ih => exact ih

/-! ## Convergence -/

/-- What is processed once every event has been delivered. -/
theorem processed_of_delivered (h : ∀ o ∈ p.outbox, o.payload ∈ p.delivered) :
    p.processed = p.outbox :=
  List.filter_eq_self.mpr fun o ho => decide_eq_true (h o ho)

/-- The lines of an event are in the table exactly if it has been processed. -/
theorem Converged.line_mem_iff (hp : p.Converged) (h : PipelineRun sha256 t₀ ok p) {o : OutboxRow}
    (ho : o ∈ p.outbox) {l : ActivityLine} (hl : l ∈ o.payload.lines) :
    l ∈ p.table.map (·.line) ↔ o.payload ∈ p.delivered := by
  rw [hp.contents.mem_iff, List.mem_flatMap]
  constructor
  · rintro ⟨o', ho', hl'⟩
    obtain ⟨hout, hdelivered⟩ := List.mem_filter.mp ho'
    have heventId : o'.payload.eventId = o.payload.eventId := by
      rw [← EventEnvelope.eventId_of_mem hl', ← EventEnvelope.eventId_of_mem hl]
    rw [← eq_of_eventId h hout ho heventId]
    exact of_decide_eq_true hdelivered
  · intro hdelivered
    exact ⟨o, List.mem_filter.mpr ⟨ho, decide_eq_true hdelivered⟩, hl⟩

/-- The consumer never raises. -/
theorem Converged.process_ok (hp : p.Converged) (h : PipelineRun sha256 t₀ ok p) {o : OutboxRow}
    (ho : o ∈ p.outbox) :
    ∃ table, ActivityConsumer.process p.wallet.shared.db p.table o.payload = .ok table := by
  by_cases hdelivered : o.payload ∈ p.delivered
  · exact ⟨p.table, hp.duplicate h ho hdelivered⟩
  · obtain ⟨table, hprocess, -⟩ := hp.first h ho hdelivered
    exact ⟨table, hprocess⟩

end Pipeline

/-- In every state of every run, whatever the order, the duplicates and the crashes of the
deliveries were: the read model holds the lines of exactly the events that have been processed,
which are those of the whole outbox once each event has been delivered; the lines of one event are
there together or not at all; the consumer raises on no event, and a duplicate leaves the table as
it is. -/
theorem read_model_converges {p : Pipeline} (h : ∃ t₀, PipelineRun sha256 t₀ anyStep p) :
    (p.table.map (·.line)).Perm (p.processed.flatMap (·.payload.lines)) ∧
      ((∀ o ∈ p.outbox, o.payload ∈ p.delivered) →
        (p.table.map (·.line)).Perm (p.outbox.flatMap (·.payload.lines))) ∧
      (∀ o ∈ p.outbox, (∀ l ∈ o.payload.lines, l ∈ p.table.map (·.line)) ∨
        ∀ l ∈ o.payload.lines, l ∉ p.table.map (·.line)) ∧
      (∀ o ∈ p.outbox, ∃ table,
        ActivityConsumer.process p.wallet.shared.db p.table o.payload = .ok table) ∧
      ∀ o ∈ p.outbox, o.payload ∈ p.delivered →
        ActivityConsumer.process p.wallet.shared.db p.table o.payload = .ok p.table := by
  obtain ⟨t₀, h⟩ := h
  have hp := Pipeline.converged h
  refine ⟨hp.contents, fun hall => ?_, fun o ho => ?_, fun o ho => hp.process_ok h ho,
    fun o ho hdelivered => hp.duplicate h ho hdelivered⟩
  · -- every event has been processed once all have been delivered
    rw [← Pipeline.processed_of_delivered hall]
    exact hp.contents
  · -- the lines of an event are in the table exactly if it has been processed
    by_cases hdelivered : o.payload ∈ p.delivered
    · exact .inl fun l hl => (hp.line_mem_iff h ho hl).mpr hdelivered
    · exact .inr fun l hl hmem => hdelivered ((hp.line_mem_iff h ho hl).mp hmem)

/-! ## Explicit deliveries -/

/-- A run of the wallet is one of the pipeline, in which nothing has been delivered. -/
theorem pipelineRun_of_walletRun (h : WalletRun sha256 t₀ ok c) :
    PipelineRun sha256 t₀ ok ⟨c, [], []⟩ := by
  induction h with
  | refl => exact .start
  | step _ hl hs ih => exact .wallet ih hl hs

/-- The events at the given places of the outbox are delivered one after another. -/
def Pipeline.deliver (p : Pipeline) : List ℕ → Option Pipeline
  | [] => some p
  | n :: ns =>
      match p.outbox[n]? with
      | none => none
      | some o =>
          match ActivityConsumer.process p.wallet.shared.db p.table o.payload with
          | .ok table =>
              deliver { p with table := table, delivered := o.payload :: p.delivered } ns
          | .error _ => none

/-- Deliveries extend a run of the pipeline. -/
theorem PipelineRun.deliver {p p' : Pipeline} {ns : List ℕ} (h : PipelineRun sha256 t₀ ok p)
    (hdeliver : p.deliver ns = some p') : PipelineRun sha256 t₀ ok p' := by
  induction ns generalizing p with
  | nil =>
      cases hdeliver
      exact h
  | cons n ns ih =>
      rw [Pipeline.deliver] at hdeliver
      split at hdeliver
      · cases hdeliver
      · next o ho =>
          split at hdeliver
          · next table hprocess =>
              exact ih (.processed h (List.mem_of_getElem? ho) hprocess) hdeliver
          · cases hdeliver

/-- What a schedule and a sequence of deliveries end in is reached. -/
theorem pipelineRun_of_played {ok : State → Event → Prop} [∀ w l, Decidable (ok w l)]
    {ms : Schedule} (ns : List ℕ) {P : Pipeline → Prop} [DecidablePred P]
    (h : (played ok ms).any (fun c =>
      ((⟨c, [], []⟩ : Pipeline).deliver ns).any fun p => decide (P p)) = true) :
    ∃ p, (∃ t₀, PipelineRun Sha256.hexdigest t₀ ok p) ∧ P p := by
  obtain ⟨c, hc, h⟩ := (Option.any_eq_true _ _).mp h
  obtain ⟨p, hp, hP⟩ := (Option.any_eq_true _ _).mp h
  have hrun := pipelineRun_of_walletRun (System.run_of_play hc)
  exact ⟨p, ⟨0, hrun.deliver hp⟩, of_decide_eq_true hP⟩

/-- The events of a transfer are delivered out of order, some of them twice. -/
theorem read_model_converges_transferred :
    ∃ p : Pipeline, (∃ t₀, PipelineRun Sha256.hexdigest t₀ anyStep p) ∧ p.table.length = 3 ∧
      p.delivered.length = 6 ∧
      (p.table.map (·.line)).Perm (p.outbox.flatMap (·.payload.lines)) := by
  obtain ⟨p, hp, hall, hlen, hcount⟩ := pipelineRun_of_played [0, 2, 0, 1, 3, 2]
    (P := fun p => (∀ o ∈ p.outbox, o.payload ∈ p.delivered) ∧ p.table.length = 3 ∧
      p.delivered.length = 6)
    (show (played anyStep (transferredSchedule ⟨false, 10, 0⟩)).any _ = true by decide +kernel)
  exact ⟨p, hp, hlen, hcount, (read_model_converges hp).2.1 hall⟩

end MiniWallet

import MiniWallet.Management.Deployment
import MiniWallet.Safety.ExactHistory

/-!
# Movements of money between users

Completed transfers and seeds are the movements that the backfill makes up events for. The tables of
the wallet hold them for good, and the events of the services tell of the same ones.

* `backfillable`, `entities_mono`: the tables of the wallet are fit for a backfill, and what it can
  find there stays.
* `issued_unnamed`: no identifier of the wallet is one that is made of a name.
* `MovementLeg`, `Database.movementLegs`: the legs of the movements, without their amounts.
* `outbox_legs`, `facts_legs`, `legs_event`: the same legs, read off the events.
-/

namespace MiniWallet

open Numeric Process System State
open BackfillEvents (Entity)

variable {sha256 : String → String} {t₀ : Time} {ok : State → Event → Prop} {c c' : Wallet}

/-! ## The tables of the wallet -/

/-- What is stored of an amount fits the column that it was stored in. -/
theorem amountFits_stored {d : Decimal} (h : amountFits d) :
    amountFits (Ticks.toDecimal (Ticks.ofDecimal d)) := by
  unfold amountFits at h ⊢
  rwa [Ticks.ofDecimal_toDecimal]

/-- Accounts stay when a transaction is committed. -/
theorem Database.accountById_post {db : Database} {T : Transaction} {id : UUID}
    (h : (db.accountById id).isSome) : ((db.applyAll T.writes).accountById id).isSome := by
  obtain ⟨a, ha, hid⟩ := db.accountById_isSome.mp h
  refine (db.applyAll T.writes).accountById_isSome.mpr ⟨a, ?_, hid⟩
  rw [Database.accounts_post]
  exact List.mem_append_right _ ha

/-- What a transaction adds to the completed transfers. -/
theorem Commits.transfer_facts {i : ℕ} {T : Transaction} (hT : Commits sha256 t₀ ok c i T)
    {t : Transfer Decimal} (ht : t ∈ T.transfers) (hstatus : t.status = .completed) :
    t.fromAccountId ≠ t.toAccountId ∧
      ((c.shared.db.applyAll T.writes).accountById t.fromAccountId).isSome ∧
      ((c.shared.db.applyAll T.writes).accountById t.toAccountId).isSome ∧
      amountFits (Ticks.toDecimal t.stored.amount) := by
  have hjustified := hT.justified
  cases hjustified with
  | transferFailed _ hfailed =>
      obtain rfl := List.mem_singleton.mp ht
      rw [hfailed] at hstatus
      cases hstatus
  | transferred _ _ _ hmove =>
      obtain rfl := List.mem_singleton.mp ht
      obtain ⟨hfits, -, hsource, htarget⟩ := hT.entry_facts (List.mem_singleton_self _)
      rw [hmove] at hfits hsource htarget
      exact ⟨hT.different_accounts, hsource, htarget, amountFits_stored hfits⟩
  | _ => cases ht

/-- What a transaction adds to the ledger. -/
theorem Commits.leg_facts {i : ℕ} {T : Transaction} (hT : Commits sha256 t₀ ok c i T)
    {e : Entry Decimal} (he : e ∈ T.entries) {l : LedgerEntry Ticks} (hl : l ∈ e.stored.legs) :
    ((c.shared.db.applyAll T.writes).accountById l.accountId).isSome ∧
      amountFits (Ticks.toDecimal l.amount) := by
  obtain ⟨hfits, -, hsource, htarget⟩ := hT.entry_facts he
  have hdouble := e.stored.double
  have hamount : e.stored.movement.amount = Ticks.ofDecimal e.movement.amount := rfl
  simp only [Entry.legs, List.mem_cons, List.not_mem_nil, or_false] at hl
  rcases hl with rfl | rfl
  · rw [hdouble.debit_account, hdouble.debit_amount, hamount]
    exact ⟨hsource, amountFits_stored hfits⟩
  · rw [hdouble.credit_account, hdouble.credit_amount, hamount]
    exact ⟨htarget, amountFits_stored hfits⟩

/-- In every run the tables of the wallet are fit for a backfill. -/
theorem backfillable (h : WalletRun sha256 t₀ ok c) : Backfillable c.shared.db where
  keys := (keys_nodup h 0).of_append_right
  transfers := by
    refine database_invariant (P := fun db => ∀ t ∈ db.transfers, t.status = .completed →
      t.fromAccountId ≠ t.toAccountId ∧ (db.accountById t.fromAccountId).isSome ∧
        (db.accountById t.toAccountId).isSome ∧ amountFits (Ticks.toDecimal t.amount))
      (fun t ht => nomatch ht) ?_ h
    intro c i T hT hP t ht hstatus
    rw [Database.transfers_post, List.mem_append, List.mem_map] at ht
    -- the transfer is from the transaction, or it was there before
    rcases ht with ⟨t', ht', rfl⟩ | ht
    · exact hT.transfer_facts ht' hstatus
    · obtain ⟨hdifferent, hfrom, hto, hfits⟩ := hP t ht hstatus
      exact ⟨hdifferent, Database.accountById_post hfrom, Database.accountById_post hto, hfits⟩
  legs := by
    refine database_invariant (P := fun db => ∀ e ∈ db.ledgerEntries,
      (db.accountById e.accountId).isSome ∧ amountFits (Ticks.toDecimal e.amount))
      (fun e he => nomatch he) ?_ h
    intro c i T hT hP l hl
    rw [(Database.ledgerEntries_post _ T).mem_iff, List.mem_append, List.mem_flatMap] at hl
    -- and so for the legs
    rcases hl with ⟨e, he, hl⟩ | hl
    · exact hT.leg_facts he hl
    · exact (hP l hl).imp_left Database.accountById_post

/-- The rows that make up entities stay. -/
theorem rows_subset (h : WalletRun sha256 t₀ ok c) (h' : (wallet sha256).Run ok c c') :
    c.shared.db.accounts ⊆ c'.shared.db.accounts ∧ c.shared.db.transfers ⊆ c'.shared.db.transfers ∧
      c.shared.db.ledgerEntries ⊆ c'.shared.db.ledgerEntries := by
  refine database_monotone (R := fun db db' => db.accounts ⊆ db'.accounts ∧
    db.transfers ⊆ db'.transfers ∧ db.ledgerEntries ⊆ db'.ledgerEntries)
    (fun _ => ⟨List.Subset.refl _, List.Subset.refl _, List.Subset.refl _⟩) ?_ ?_ h h'
  · rintro db db' db'' ⟨ha, ht, hl⟩ ⟨ha', ht', hl'⟩
    exact ⟨List.Subset.trans ha ha', List.Subset.trans ht ht', List.Subset.trans hl hl'⟩
  · intro c i T _
    refine ⟨?_, ?_, fun l hl => ?_⟩
    · rw [Database.accounts_post]
      exact List.subset_append_right _ _
    · rw [Database.transfers_post]
      exact List.subset_append_right _ _
    · exact (Database.ledgerEntries_post _ T).mem_iff.mpr (List.mem_append_right _ hl)

/-- An account keeps its owner. -/
theorem owner_eq (h : WalletRun sha256 t₀ ok c) (h' : (wallet sha256).Run ok c c') {id : UUID}
    (hid : (c.shared.db.accountById id).isSome) :
    c'.shared.db.owner id = c.shared.db.owner id := by
  obtain ⟨a, ha⟩ := Option.isSome_iff_exists.mp hid
  have hstays := (rows_subset h h').1 (List.mem_of_find?_eq_some ha)
  have haid : a.id = id := by simpa using List.find?_some ha
  -- there is one account with the identifier, before and after
  have hsome : (c'.shared.db.accountById id).isSome :=
    c'.shared.db.accountById_isSome.mpr ⟨a, hstays, haid⟩
  obtain ⟨b, hb⟩ := Option.isSome_iff_exists.mp hsome
  have hbid : b.id = id := by simpa using List.find?_some hb
  have hsame : b = a := List.inj_on_of_nodup_map
    (BackfillEvents.nodup_accounts (backfillable (h.trans h')))
      (List.mem_of_find?_eq_some hb) hstays
    (hbid.trans haid.symm)
  rw [Database.owner, Database.owner, ha, hb, hsame]

/-- What a backfill can find stays. -/
theorem entities_mono (h : WalletRun sha256 t₀ ok c) (h' : (wallet sha256).Run ok c c') :
    c.shared.db.entities ⊆ c'.shared.db.entities := by
  obtain ⟨haccounts, htransfers, hlegs⟩ := rows_subset h h'
  intro x hx
  cases x with
  | account a =>
      obtain ⟨ha, howned⟩ := List.mem_filter.mp (Entity.account_mem.mp hx)
      exact Entity.account_mem.mpr (List.mem_filter.mpr ⟨haccounts ha, howned⟩)
  | transfer t => exact Entity.transfer_mem.mpr (htransfers (Entity.transfer_mem.mp hx))
  | seed e owner =>
      obtain ⟨he, howner⟩ := Entity.seed_mem.mp hx
      obtain ⟨hleg, hseed⟩ := List.mem_filter.mp he
      refine Entity.seed_mem.mpr ⟨List.mem_filter.mpr ⟨hlegs hleg, hseed⟩, ?_⟩
      rw [owner_eq h h' ((backfillable h).legs e hleg).1, howner]

/-! ## Identifiers -/

/-- In every run no identifier that was handed out is of version 5. -/
theorem issued_unnamed (h : WalletRun sha256 t₀ Unnamed c) :
    ∀ id ∈ c.shared.issued, id.version ≠ 5 := by
  refine h.invariant (System.abides_any _)
    (I := fun w => ∀ id ∈ w.shared.issued, UUID.version id ≠ 5) ?_
  refine { init := ?_, spawn := fun _ hI => hI, call := ?_, stop := fun _ hI _ => hI, env := ?_ }
  · intro id hid
    obtain rfl := List.mem_singleton.mp hid
    -- the identifier of the system account is not of version 5
    decide
  · intro c i o r hcall hI
    dsimp only [afterCall, wallet]
    cases o with
    -- the condition on the step is about the identifiers that are drawn
    | uuid4 =>
        cases r with
        | error e => exact hI
        | ok id => exact List.forall_mem_cons.mpr ⟨hcall.allowed, hI⟩
    | cacheSet key entry | breaker command | lockWithdrawal id | commit
    | sendWithdrawal id amount destination => cases r <;> exact hI
    | now | cacheGet key | select q | lockAccount id | claimStuck cutoff limit | write w | rollback
    | queryStatus ref => exact hI
  · rintro c _ - hI ⟨clock, redis, rfl, -⟩
    exact hI

/-- In every run no event of the services has an identifier of version 5. -/
theorem eventId_ne (h : WalletRun sha256 t₀ Unnamed c) {o : OutboxRow}
    (ho : o ∈ c.shared.db.outbox) {id : UUID} (hid : id.version = 5) : o.payload.eventId ≠ id.str :=
  fun heq => issued_unnamed h id (tracked_eventIds.issued h id ⟨o, ho, heq⟩) hid

/-! ## Legs -/

/-- A leg of a movement, without its amount. -/
structure MovementLeg where
  account : UUID
  direction : Direction
  entryType : String
  reference : Option UUID
deriving DecidableEq, Repr

/-- The leg in the words of an event, without the event. -/
def MovementLeg.line (x : MovementLeg) : ActivityLine where
  eventId := ""
  account := x.account.str
  direction := x.direction
  amount := none
  currency := ""
  entryType := x.entryType
  reference := x.reference.map UUID.str
  occurredAt := 0

/-- Different legs are written in different lines. -/
theorem MovementLeg.line_injective : Function.Injective MovementLeg.line := by
  rintro ⟨a, d, ty, ref⟩ ⟨a', d', ty', ref'⟩ h
  simp only [line, ActivityLine.mk.injEq, true_and, and_true] at h
  obtain ⟨haccount, rfl, rfl, href⟩ := h
  rw [UUID.str_injective haccount, Option.map_injective UUID.str_injective href]

/-- The line belongs to a transfer or a seed. -/
def ActivityLine.ofMovement (l : ActivityLine) : Bool :=
  l.entryType = "transfer" || l.entryType = "seed"

/-- The line as that of a leg. -/
def ActivityLine.leg (l : ActivityLine) : ActivityLine :=
  { l with eventId := "", amount := none, currency := "", occurredAt := 0 }

/-- The row belongs to a transfer or a seed. -/
def TransactionActivity.ofMovement (r : TransactionActivity Ticks) : Bool :=
  r.entryType = "transfer" || r.entryType = "seed"

/-- The leg that a row shows. -/
def TransactionActivity.leg (r : TransactionActivity Ticks) : MovementLeg where
  account := r.accountId
  direction := r.direction
  entryType := r.entryType
  reference := r.referenceId

/-- A debit and a credit for each completed transfer, and a credit for each seed. -/
def Database.movementLegs (db : Database) : List MovementLeg :=
  (db.transfers.filter (·.status = .completed)).flatMap (fun t =>
    [⟨t.fromAccountId, .debit, "transfer", some t.id⟩,
      ⟨t.toAccountId, .credit, "transfer", some t.id⟩]) ++
  db.seeds.map fun e => ⟨e.accountId, .credit, "seed", none⟩

/-- The legs of movements that an event stands for. -/
def EventEnvelope.legs (e : EventEnvelope) : List ActivityLine :=
  (e.lines.filter (·.ofMovement)).map (·.leg)

/-- The legs of movements that a fact stands for. -/
def Fact.legs : Fact → List ActivityLine
  | transferCompleted transfer source target =>
      [⟨"", source, .debit, none, "", "transfer", some transfer, 0⟩,
        ⟨"", target, .credit, none, "", "transfer", some transfer, 0⟩]
  | seedCompleted account => [⟨"", account, .credit, none, "", "seed", none, 0⟩]
  | _ => []

section Legs

attribute [local simp] EventEnvelope.legs EventEnvelope.lines ActivityLine.ofMovement
  ActivityLine.leg EventPayload.fact? Fact.legs

/-- The event of a transaction stands for the legs of its fact. -/
theorem Narrated.legs {σ : Session} {T : Transaction} (h : Narrated σ T) :
    ∀ o ∈ T.events, o.payload.legs = o.payload.payload.fact?.toList.flatMap Fact.legs := by
  intro o ho
  cases h with
  | empty | submitted => cases ho
  | opened _ hevent | seeded _ hevent | transferFailed _ hevent | transferred _ hevent
  | depositRejected _ hevent | deposited _ hevent | reserved hevent | completed _ _ hevent
  | compensated _ hevent =>
      obtain rfl := List.mem_singleton.mp ho
      simp [hevent.payload]

end Legs

/-- In every run the events of the services stand for the legs of their facts. -/
theorem outbox_legs (h : WalletRun sha256 t₀ ok c) :
    ∀ o ∈ c.shared.db.outbox,
    o.payload.legs = o.payload.payload.fact?.toList.flatMap Fact.legs := by
  refine database_invariant (P := fun db => ∀ o ∈ db.outbox,
    o.payload.legs = o.payload.payload.fact?.toList.flatMap Fact.legs) (fun o ho => nomatch ho) ?_ h
  intro c i T hT hP o ho
  rw [Database.outbox_post, List.mem_append] at ho
  rcases ho with ho | ho
  · exact hT.narrated.legs o ho
  · exact hP o ho

/-- The facts that the tables hold stand for the legs of the movements. -/
theorem Database.facts_legs (db : Database) :
    (db.facts.flatMap Fact.legs).Perm (db.movementLegs.map (·.line)) := by
  -- accounts, deposits and withdrawals have no legs in the read model
  have haccounts : (db.accounts.filterMap Account.fact?).flatMap Fact.legs = [] := by
    refine List.flatMap_eq_nil_iff.mpr fun f hf => ?_
    obtain ⟨a, -, ha⟩ := List.mem_filterMap.mp hf
    obtain ⟨user, -, rfl⟩ := Option.map_eq_some_iff.mp ha
    rfl
  have hdeposits : (db.deposits.filterMap Deposit.fact?).flatMap Fact.legs = [] := by
    refine List.flatMap_eq_nil_iff.mpr fun f hf => ?_
    obtain ⟨d, -, hd⟩ := List.mem_filterMap.mp hf
    rw [Deposit.fact?] at hd
    split at hd <;> cases hd <;> rfl
  have hwithdrawals : (db.withdrawals.map Withdrawal.fact).flatMap Fact.legs = [] :=
    List.flatMap_eq_nil_iff.mpr fun f hf => by
      obtain ⟨w, -, rfl⟩ := List.mem_map.mp hf
      rfl
  -- of the legs in the ledger, those that credit a seed
  have hseeds : (db.ledgerEntries.filterMap LedgerEntry.fact?).flatMap Fact.legs =
      db.seeds.map fun e => (⟨e.accountId, .credit, "seed", none⟩ : MovementLeg).line := by
    rw [Database.seeds]
    induction db.ledgerEntries with
    | nil => rfl
    | cons e es ih =>
        cases hdirection : e.direction <;> cases htype : e.entryType <;>
          simp [LedgerEntry.fact?, hdirection, htype, Fact.legs, ih, MovementLeg.line]
  -- of the transfers, the completed ones
  have htransfers : (db.transfers.map Transfer.fact).flatMap Fact.legs =
      ((db.transfers.filter (·.status = .completed)).flatMap fun t =>
        [(⟨t.fromAccountId, .debit, "transfer", some t.id⟩ : MovementLeg).line,
          (⟨t.toAccountId, .credit, "transfer", some t.id⟩ : MovementLeg).line]) := by
    induction db.transfers with
    | nil => rfl
    | cons t ts ih =>
        cases hstatus : t.status <;>
          simp [Transfer.fact, hstatus, Fact.legs, ih, MovementLeg.line]
  rw [Database.facts, Database.movementLegs]
  simp only [List.flatMap_append, haccounts, hdeposits, hwithdrawals, hseeds, htransfers,
    List.nil_append, List.append_nil, List.map_append, List.map_flatMap, List.map_map]
  exact List.perm_append_comm

/-! ## Entities that move money -/

namespace BackfillEvents.Entity

/-- The entity is a completed transfer or a seed. -/
def moves : Entity → Bool
  | account _ => false
  | transfer t => t.status = .completed
  | seed _ _ => true

/-- The legs of the movement that an entity is. -/
def legs (x : Entity) : List MovementLeg :=
  match x with
  | account _ => []
  | transfer t =>
      if t.status = .completed then
        [⟨t.fromAccountId, .debit, "transfer", some t.id⟩,
          ⟨t.toAccountId, .credit, "transfer", some t.id⟩]
      else []
  | seed e _ => [⟨e.accountId, .credit, "seed", none⟩]

/-- Only a movement has legs. -/
theorem legs_eq_nil {x : Entity} : x.legs = [] ↔ x.moves = false := by
  cases x with
  | account a => simp [legs, moves]
  | transfer t => cases hstatus : t.status <;> simp [legs, moves, hstatus]
  | seed e owner => simp [legs, moves]

/-- The event of an entity stands for its legs. -/
theorem legs_event {uuid5 : String → UUID} (x : Entity) (t : Time) :
    (x.event uuid5 t).legs = x.legs.map (·.line) := by
  cases x with
  | account a => rfl
  | transfer tr =>
      cases hstatus : tr.status with
      | completed =>
          simp [EventEnvelope.legs, EventEnvelope.lines, event, payload_completed hstatus, legs,
            hstatus,
            ActivityLine.ofMovement, ActivityLine.leg, MovementLeg.line]
      | failed =>
          simp [EventEnvelope.legs, EventEnvelope.lines, event, payload_failed hstatus, legs,
            hstatus]
  | seed e owner =>
      simp [EventEnvelope.legs, EventEnvelope.lines, event, payload, legs, ActivityLine.ofMovement,
        ActivityLine.leg, MovementLeg.line]

end BackfillEvents.Entity

/-- The entities of the database stand for the legs of its movements. -/
theorem Database.entities_legs (db : Database) :
    db.entities.flatMap Entity.legs = db.movementLegs := by
  have htransfers : (db.transfers.map Entity.transfer).flatMap Entity.legs =
      (db.transfers.filter (·.status = .completed)).flatMap (fun t =>
        [⟨t.fromAccountId, .debit, "transfer", some t.id⟩,
          ⟨t.toAccountId, .credit, "transfer", some t.id⟩]) := by
    induction db.transfers with
    | nil => rfl
    | cons t ts ih => cases hstatus : t.status <;> simp [Entity.legs, hstatus, ih]
  have haccounts : (db.userAccounts.map Entity.account).flatMap Entity.legs = [] := by
    simp [List.flatMap_map, Entity.legs]
  have hseeds : (db.seeds.map fun e => Entity.seed e (db.owner e.accountId)).flatMap Entity.legs =
      db.seeds.map fun e => ⟨e.accountId, .credit, "seed", none⟩ := by
    rw [List.flatMap_map, List.map_eq_flatMap]
    rfl
  rw [Database.entities, List.flatMap_append, List.flatMap_append, haccounts, htransfers, hseeds,
    List.nil_append, Database.movementLegs]

end MiniWallet

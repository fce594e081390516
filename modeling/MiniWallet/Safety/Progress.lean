import MiniWallet.Safety.Sweeping
import MiniWallet.Safety.Uniqueness

/-!
# Progress of the sweeps

A sweep takes as many stuck withdrawals as its limit allows, in any order, and it takes them after
five minutes. A submitted withdrawal can be refunded after thirty minutes only, so that a batch can
consist of withdrawals that the sweep leaves as they are.

* `Database.Sound`: what the schema ensures of the tables, whatever they contain.
* `Withdrawal.Due`, `Database.Resolvable`: the withdrawals that a sweep is sure to resolve.
* `Resolves`: the transactions by which it does so.
* `sweeps_resolveOne`: what a sweep does with one withdrawal, and why.
* `sweeps_resolveAll`: what it does with a batch.
* `sweep_progresses_iff`: the condition under which a sweep is sure to leave fewer unfinished
  withdrawals.
* `sweep_stalls`: twenty withdrawals that cannot be refunded yet, and one that could be.
-/

namespace MiniWallet

open Numeric Process System State Program SagaRecovery

/-! ## Withdrawals that are stuck -/

namespace Database

variable (db : Database)

/-- The withdrawals that are not finished. -/
def unfinished : List (Withdrawal Ticks) := db.withdrawals.filter fun row => ¬ row.status.Terminal

/-- The withdrawals that the search of a sweep matches at an instant. -/
def stuck (clock : Time) : List (Withdrawal Ticks) :=
  db.withdrawals.filter fun row =>
    ¬ row.status.Terminal ∧ row.updatedAt < clock - minutes stuckThresholdMinutes

end Database

/-- It is time to resolve the withdrawal: it is pending, or submitted without a reference of the
rail and not updated for the hard timeout. -/
def Withdrawal.Due (row : Withdrawal Ticks) (clock : Time) : Prop :=
  row.status = .pending ∨ row.status = .submitted ∧ nonEmpty? row.externalReference = none ∧
    row.updatedAt < clock - minutes hardTimeoutMinutes

/-- Whether a withdrawal is due is decidable. -/
instance (row : Withdrawal Ticks) (clock : Time) : Decidable (row.Due clock) :=
  inferInstanceAs (Decidable (_ ∨ _ ∧ _ ∧ _))

/-- No leg of the ledger carries the key of the reversal. -/
def Database.ReversalFree (db : Database) (row : Withdrawal Ticks) : Prop :=
  ∀ l ∈ db.ledgerEntries, l.idempotencyKey ≠ some (reversalKey row.id)

/-- Whether the keys of a reversal are free is decidable. -/
instance (db : Database) (row : Withdrawal Ticks) : Decidable (db.ReversalFree row) :=
  inferInstanceAs (Decidable (∀ _ ∈ _, _))

/-- It is time to resolve the withdrawal, and it can be refunded. -/
def Database.Resolvable (db : Database) (clock : Time) (row : Withdrawal Ticks) : Prop :=
  row.Due clock ∧ db.ReversalFree row

/-- Whether a withdrawal can be resolved is decidable. -/
instance (db : Database) (clock : Time) (row : Withdrawal Ticks) :
    Decidable (db.Resolvable clock row) :=
  inferInstanceAs (Decidable (_ ∧ _))

/-- What the schema ensures of the tables: the values of the withdrawals were checked, they belong
to accounts, and their primary keys are different and have been drawn. -/
structure Database.Sound (db : Database) (issued : List UUID) : Prop where
  system : (db.accountById systemAccountId).isSome
  stored : ∀ row ∈ db.withdrawals, row.Stored
  accounts : ∀ row ∈ db.withdrawals, (db.accountById row.accountId).isSome
  ids : (db.withdrawals.map (·.id)).Nodup
  names : Within db.keys issued

/-- The tables of the wallet are sound in every state that it can reach. -/
theorem sound_of_reaches {sha256 : String → String} {c : Wallet} (h : Reaches sha256 c) :
    c.shared.db.Sound c.shared.issued where
  system := system_exists h
  stored := fun row hrow => withdrawal_stored h hrow
  accounts := by
    intro row hrow
    obtain ⟨t₀, h⟩ := h
    exact (refers h 0).2 _ (Database.mem_withdrawals.mp hrow) _ (List.mem_singleton.mpr rfl)
  ids := by
    obtain ⟨t₀, h⟩ := h
    exact (unique_columns h).withdrawal_id
  names := within_issued h

/-! ## Resolving a withdrawal -/

/-- The transactions by which a sweep resolves a withdrawal, with the primary keys of their rows. -/
inductive Resolves (id : UUID) : Transaction → List UUID → Prop
  | completed {before : List WithdrawalSet} {set : WithdrawalSet} {event : OutboxRow} :
      set.status = .completed → Resolves id (.completed id before set event) [event.id]
  | compensated {before : List WithdrawalSet} {e : Entry Decimal} {set : WithdrawalSet}
      {event : OutboxRow} :
      e.debit.idempotencyKey = none → e.credit.idempotencyKey = some (reversalKey id) →
      set.status = .failed →
      Resolves id (.compensated id before e set event) [e.debit.id, e.credit.id, event.id]

namespace Resolves

variable {id : UUID} {T : Transaction} {ids : List UUID} {db : Database}

/-- The withdrawal is finished. -/
theorem terminal (h : Resolves id T ids) {row : Withdrawal Ticks} (hid : row.id = id) :
    (T.update row).status.Terminal := by
  cases h with
  | @completed before set event hset =>
      obtain ⟨before', set', hu, hstatus⟩ :=
        (Transaction.completed id before set event).last_update (α := Ticks) ⟨_, rfl, rfl⟩
      obtain ⟨-, rfl⟩ := Transaction.last_of_updates hu before rfl
      exact .inl ((hstatus row hid).trans hset)
  | @compensated before e set event _ _ hset =>
      obtain ⟨before', set', hu, hstatus⟩ :=
        (Transaction.compensated id before e set event).last_update (α := Ticks) ⟨_, rfl, rfl⟩
      obtain ⟨-, rfl⟩ := Transaction.last_of_updates hu before rfl
      exact .inr ((hstatus row hid).trans hset)

/-- The other withdrawals stay as they are. -/
theorem update_of_ne (h : Resolves id T ids) {row : Withdrawal Ticks} (hid : row.id ≠ id) :
    T.update row = row := by
  refine Transaction.update_of_ne fun u hu => ?_
  cases h <;> cases hu <;> exact hid.symm

/-- No withdrawal is added. -/
theorem withdrawals (h : Resolves id T ids) :
    (db.applyAll T.writes).withdrawals = db.withdrawals.map T.update := by
  rw [Database.withdrawals_post]
  cases h <;> rfl

/-- The keys that are added: the primary keys of the new rows, and possibly the key of the
reversal. -/
theorem mem_keys (h : Resolves id T ids) {k : UniqueKey} (hk : k ∈ (db.applyAll T.writes).keys) :
    k ∈ db.keys ∨ k = .ledgerIdempotencyKey (reversalKey id) ∨ ∃ t, ∃ id' ∈ ids,
    k = .pkey t id' := by
  rw [(db.keys_applyAll T.writes).mem_iff, List.mem_append] at hk
  rcases hk with hk | hk
  · -- a key of one of the writes: of the event or of a leg, where only the credit has another key
    right
    obtain ⟨w, hw, hk⟩ := List.mem_flatMap.mp hk
    cases h with
    | completed hset =>
        simp only [Transaction.writes, List.mem_append, List.mem_map, List.mem_cons,
          List.not_mem_nil, or_false] at hw
        rcases hw with ⟨s, -, rfl⟩ | rfl | rfl
        · cases hk
        · obtain rfl := List.mem_singleton.mp hk
          exact .inr ⟨_, _, List.mem_singleton.mpr rfl, rfl⟩
        · cases hk
    | compensated hdebit hcredit hset =>
        simp only [Transaction.writes, List.mem_append, List.mem_map, List.mem_cons,
          List.not_mem_nil, or_false] at hw
        rcases hw with ⟨s, -, rfl⟩ | rfl | rfl | rfl | rfl
        · cases hk
        · simp only [Write.keys, Row.keys, hdebit] at hk
          obtain rfl := List.mem_singleton.mp hk
          exact .inr ⟨_, _, by simp, rfl⟩
        · simp only [Write.keys, Row.keys, hcredit] at hk
          rcases List.mem_cons.mp hk with rfl | hk
          · exact .inr ⟨_, _, by simp, rfl⟩
          · exact .inl (List.mem_singleton.mp hk)
        · obtain rfl := List.mem_singleton.mp hk
          exact .inr ⟨_, _, by simp, rfl⟩
        · cases hk
  · exact .inl hk

/-- The tables stay sound. -/
theorem sound (h : Resolves id T ids) {issued issued' : List UUID} (hdb : db.Sound issued)
    (hdrawn : DrawnSince issued issued' ids) : (db.applyAll T.writes).Sound issued' := by
  -- accounts are only added
  have haccounts {a : UUID} (ha : (db.accountById a).isSome) :
      ((db.applyAll T.writes).accountById a).isSome := by
    rw [Database.accountById_isSome] at ha ⊢
    obtain ⟨account, hmem, hid⟩ := ha
    exact ⟨account, db.mem_accounts_applyAll.mpr (.inr hmem), hid⟩
  -- a row keeps its identifier and what it moves
  have hold {row : Withdrawal Ticks} (hrow : row ∈ (db.applyAll T.writes).withdrawals) :
      ∃ old ∈ db.withdrawals, row.id = old.id ∧ row.reservation = old.reservation := by
    rw [h.withdrawals] at hrow
    obtain ⟨old, hold, rfl⟩ := List.mem_map.mp hrow
    exact ⟨old, hold, T.update_id old, T.update_reservation old⟩
  refine ⟨haccounts hdb.system, fun row hrow => ?_, fun row hrow => ?_, ?_, ?_⟩
  · obtain ⟨old, hmem, -, hsame⟩ := hold hrow
    obtain ⟨hpositive, hbounded, hcurrency⟩ := hdb.stored old hmem
    have hamount : row.amount = old.amount := congrArg (fun m : Movement Ticks => m.amount) hsame
    have hcode : row.currency = old.currency := congrArg Movement.currency hsame
    exact ⟨hamount ▸ hpositive, hamount ▸ hbounded, hcode ▸ hcurrency⟩
  · obtain ⟨old, hmem, -, hsame⟩ := hold hrow
    have haccount : row.accountId = old.accountId :=
      congrArg (fun m : Movement Ticks => m.source) hsame
    exact haccount ▸ haccounts (hdb.accounts old hmem)
  · rw [h.withdrawals, List.map_map]
    have hsame : (fun row : Withdrawal Ticks => row.id) ∘ T.update = fun row => row.id :=
      funext fun row => T.update_id row
    rw [hsame]
    exact hdb.ids
  · intro t id' hmem
    -- a key that was there before belongs to an identifier that was issued before
    rcases h.mem_keys hmem with hmem | heq | ⟨t', id'', hid, heq⟩
    · exact hdrawn.kept _ (hdb.names t id' hmem)
    · cases heq
    · cases heq
      exact hdrawn.drawn _ hid

end Resolves

/-! ## One withdrawal -/

/-- The reasons why a withdrawal can stay unfinished: its reversal is refused, an answer of the rail
does not fit its column, the rail decides, or the hard timeout has not passed. -/
def MayStay (E : Surroundings) (db : Database) (row : Withdrawal Ticks) : Prop :=
  ¬ db.ReversalFree row ∨
    (∃ reference, E.payment (.ok reference) ∧ ¬ varchar 255 reference = true) ∨
    (∃ code, E.payment (.error code) ∧ ¬ varchar 50 code = true) ∨
    row.status = .submitted ∧ (nonEmpty? row.externalReference ≠ none ∨
      ∃ t, E.time t ∧ ¬ row.updatedAt < t - minutes hardTimeoutMinutes)

/-- The reasons why a withdrawal can be resolved: the rail accepts it, or it is refunded, or the
rail has decided. -/
def MayEnd (E : Surroundings) (db : Database) (row : Withdrawal Ticks) : Prop :=
  row.status = .pending ∧ ((∃ reference, E.payment (.ok reference)) ∨ db.ReversalFree row) ∨
    row.status = .submitted ∧ nonEmpty? row.externalReference ≠ none ∧
      (∃ s, E.status s ∧ (s.state = "completed" ∨ s.state = "failed")) ∨
    row.status = .submitted ∧ nonEmpty? row.externalReference = none ∧ db.ReversalFree row ∧
      ∃ t, E.time t ∧ row.updatedAt < t - minutes hardTimeoutMinutes

/-- What is left after a sweep has dealt with a withdrawal. -/
inductive Outcome (E : Surroundings) (st : Solo) (row : Withdrawal Ticks) : Solo → Prop
  | stays {issued : List UUID} : MayStay E st.db row → DrawnSince st.issued issued [] →
      Outcome E st row { st with issued := issued, writes := [] }
  | ends {T : Transaction} {ids issued : List UUID} : MayEnd E st.db row → Resolves row.id T ids →
      DrawnSince st.issued issued ids →
      Outcome E st row { st with db := st.db.applyAll T.writes, issued := issued, writes := [] }

/-- Nothing was drawn. -/
theorem DrawnSince.refl (issued : List UUID) : DrawnSince issued issued [] :=
  ⟨fun _ h => h, fun _ h => (nomatch h), fun _ h => (nomatch h), .nil, by omega⟩

section Resolve

variable {E : Surroundings} {st : Solo} {row : Withdrawal Ticks} {w : Withdrawal Decimal}
  {cb : CircuitBreaker}

/-- The state in the middle of the transaction, after updates of the withdrawal. -/
def Solo.updating (st : Solo) (id : UUID) (sets : List WithdrawalSet) : Solo :=
  { st with writes := sets.map (.setWithdrawal id) }

/-- The updates of a withdrawal leave the keys of the tables alone. -/
theorem mem_keys_updating {id : UUID} {sets : List WithdrawalSet} {k : UniqueKey} :
    k ∈ (st.updating id sets).view.keys ↔ k ∈ st.db.keys := by
  have hnone : (sets.map (Write.setWithdrawal id)).flatMap Write.keys = [] := by
    simp [List.flatMap_eq_nil_iff, Write.keys]
  rw [Solo.view, Solo.updating, (st.db.keys_applyAll _).mem_iff, hnone, List.nil_append]

/-- The key of the reversal is free if no leg carries it. -/
theorem reversalFree_iff {id : UUID} {sets : List WithdrawalSet} :
    .ledgerIdempotencyKey (reversalKey row.id) ∉ (st.updating id sets).view.keys ↔
      st.db.ReversalFree row := by
  rw [mem_keys_updating, mem_ledgerKeys, Database.ReversalFree]
  push Not
  rfl

/-- The withdrawal can be refunded in the middle of the transaction, as far as its own values go. -/
theorem refundable_updating (hdb : st.db.Sound st.issued) (hleft : st.issued.length + 8 ≤ 2 ^ 128)
    (hrow : row ∈ st.db.withdrawals) (hw : w.id = row.id)
    (hsame : w.reservation = row.loaded.reservation) (sets : List WithdrawalSet) :
    Refundable (st.updating row.id sets).folded w := by
  obtain ⟨hpositive, hbounded, hcurrency⟩ := hdb.stored row hrow
  have hamount : w.amount = row.loaded.amount :=
    congrArg (fun m : Movement Decimal => m.amount) hsame
  have hcode : w.currency = row.currency := congrArg Movement.currency hsame
  have haccount : w.accountId = row.accountId :=
    congrArg (fun m : Movement Decimal => m.source) hsame
  have hticks : Ticks.ofDecimal w.amount = row.amount := by
    rw [hamount]
    exact Ticks.ofDecimal_toDecimal _
  have haccounts {a : UUID} (ha : (st.db.accountById a).isSome) :
      ((st.updating row.id sets).view.accountById a).isSome := by
    rw [Database.accountById_isSome] at ha ⊢
    obtain ⟨account, hmem, hid⟩ := ha
    exact ⟨account, st.db.mem_accounts_applyAll.mpr (.inr hmem), hid⟩
  -- the amount fits and is positive, the currency fits, both accounts and the row are there
  constructor
  · rw [amountFits, hticks]
    exact decide_eq_true hbounded
  · rw [hticks]
    exact hpositive
  · rw [hcode]
    exact hcurrency
  · exact haccounts hdb.system
  · rw [haccount]
    exact haccounts (hdb.accounts row hrow)
  · refine List.find?_isSome.mpr ⟨row.updated row.id sets, ?_, ?_⟩
    · show _ ∈ (st.db.applyAll (sets.map (Write.setWithdrawal row.id))).withdrawals
      rw [Database.withdrawals_sets]
      exact List.mem_map_of_mem hrow
    · simp [Withdrawal.updated, foldl_apply_id, hw]
  · exact fun t id hmem => hdb.names t id (mem_keys_updating.mp hmem)
  · exact hleft
  · rfl

/-- Where the transaction ends: it commits after the body, and is rolled back if the body raises. -/
def Concluded (E : Surroundings) (st : Solo) (row : Withdrawal Ticks) (st' : Solo) : Prop :=
  Outcome E st row { st' with db := st'.view, writes := [] }

/-- See `Concluded`. -/
def RolledBack (E : Surroundings) (st : Solo) (row : Withdrawal Ticks) (st' : Solo) : Prop :=
  Outcome E st row { st' with writes := [] }

/-- What is known of a withdrawal in memory: it is the row, after updates of its status. -/
structure Loaded (st : Solo) (row : Withdrawal Ticks) (w : Withdrawal Decimal) : Prop where
  sound : st.db.Sound st.issued
  left : st.issued.length + 8 ≤ 2 ^ 128
  mem : row ∈ st.db.withdrawals
  id : w.id = row.id
  reservation : w.reservation = row.loaded.reservation

/-- Compensation, after updates of the withdrawal in the same transaction. -/
theorem sweeps_compensate (h : Loaded st row w) (sets : List WithdrawalSet) {code : String}
    (hends : st.db.ReversalFree row → MayEnd E st.db row)
    (hmisfit : ¬ varchar 50 code = true → MayStay E st.db row) :
    Sweeps E (compensate w code) (fun _ => Concluded E st row) (fun _ => RolledBack E st row)
      (st.updating row.id sets) := by
  have hrefundable := refundable_updating h.sound h.left h.mem h.id h.reservation sets
  refine sweeps_of_solos (solos_compensate_cases hrefundable ?_ ?_ ?_)
  · -- the key of the reversal is taken, which makes the commit impossible
    intro htaken issued hdrawn
    refine .stays (.inl fun hfree => ?_) hdrawn
    rw [h.id] at htaken
    exact reversalFree_iff.mpr hfree htaken
  · -- the failure code does not fit its column
    intro _ hcode issued hdrawn
    exact .stays (hmisfit hcode) hdrawn
  · -- everything fits, so the withdrawal is failed and refunded
    intro hfree _ e set event issued he hset _ hdrawn
    rw [h.id] at hfree
    have hresolves : Resolves row.id (.compensated row.id sets e set event)
        [e.debit.id, e.credit.id, event.id] := .compensated he.2.1 (h.id ▸ he.2.2) hset.1
    have hview : (({ st.updating row.id sets with
        issued := issued
        writes := (st.updating row.id sets).writes ++
          (Transaction.compensated w.id [] e set event).writes } : Solo)).view =
        st.db.applyAll (Transaction.compensated row.id sets e set event).writes := by
      rw [h.id]
      rfl
    rw [Concluded, hview]
    exact .ends (hends (reversalFree_iff.mp hfree)) hresolves hdrawn

/-- An update of a withdrawal that exists is accepted, if its texts fit. -/
theorem verdict_setWithdrawal {db : Database} {id : UUID} {set : WithdrawalSet}
    (hrow : (db.withdrawalById id).isSome) (hfits : set.fits = true) :
    db.verdict (.setWithdrawal id set) = .ok () := by
  simp [Database.verdict, hfits, Option.isSome_iff_ne_none.mp hrow]

/-- Completion, after updates of the withdrawal in the same transaction. -/
theorem sweeps_complete (h : Loaded st row w) (sets : List WithdrawalSet) {reference : String}
    (hends : MayEnd E st.db row) (hmisfit : ¬ varchar 255 reference = true → MayStay E st.db row) :
    Sweeps E (complete w reference) (fun _ => Concluded E st row) (fun _ => RolledBack E st row)
      (st.updating row.id sets) := by
  obtain ⟨-, -, -, -, -, hrow, hnames, hleft, -⟩ :=
    refundable_updating h.sound h.left h.mem h.id h.reservation sets
  refine sweeps_of_solos (solos_bind.mpr (solos_now.mpr fun t => ?_))
  refine solos_bind.mpr (solos_publishEvent (n := 6) hleft rfl rfl
    fun event eventId hevent hfresh hid hleft => ?_)
  refine solos_bind.mpr (solos_now.mpr fun t' => ?_)
  have hdrawn : DrawnSince st.issued (event.id :: eventId :: st.issued) [event.id] := by
    constructor
    · intro id hold
      simp [hold]
    · simp
    · intro id hmem hold
      obtain rfl := List.mem_singleton.mp hmem
      exact hid (List.mem_cons_of_mem _ hold)
    · simp
    · simp
  -- the event comes first, and is accepted
  have haccepted : (st.updating row.id sets).folded.db.verdict (.insert (.outbox event)) = .ok () :=
    Database.verdict_of_admits (Database.admits_event fun hmem =>
      hid (List.mem_cons_of_mem _ (hnames _ _ hmem)))
  have hrow' : (((Write.insert (.outbox event)).apply
      (st.updating row.id sets).folded.db).withdrawalById w.id).isSome := by
    simpa [Database.withdrawalById, Row.withdrawal?] using hrow
  by_cases hcode : varchar 255 reference = true
  · refine (solos_flush ?_).mpr ?_
    · exact ⟨haccepted, verdict_setWithdrawal hrow' (by simp [WithdrawalSet.fits, hcode]), trivial⟩
    · rw [Concluded, Solo.view, h.id]
      exact .ends hends (.completed rfl) hdrawn
  · refine (solos_flush_error [.insert (.outbox event)] _ (e := .dataError) ?_ ?_).mpr ?_
    · exact ⟨haccepted, trivial⟩
    · simp [Database.verdict, WithdrawalSet.fits, hcode]
    · exact .stays (hmisfit hcode) ⟨hdrawn.kept, by rintro id ⟨⟩, by rintro id ⟨⟩, .nil, hdrawn.few⟩

/-- A withdrawal that never reached the rail. -/
theorem sweeps_recoverPending (cb : CircuitBreaker) (h : Loaded st row row.loaded)
    (hpending : row.status = .pending) (hpayment : ∃ x, E.payment x) :
    Sweeps E (recoverPending cb row.loaded) (fun _ => Concluded E st row)
      (fun _ => RolledBack E st row) (st.updating row.id []) := by
  have hends (hfree : st.db.ReversalFree row) : MayEnd E st.db row := .inl ⟨hpending, .inr hfree⟩
  have hopen : ¬ ¬ varchar 50 "CIRCUIT_OPEN" = true := by decide +kernel
  refine sweeps_bind.mpr (sweeps_isCallAllowed fun allowed => ?_)
  cases allowed with
  -- the circuit is open
  | false => exact sweeps_compensate h _ hends fun hcode => absurd hcode hopen
  | true =>
      refine sweeps_bind.mpr (sweeps_now fun t _ => sweeps_bind.mpr (sweeps_now fun t' _ => ?_))
      have hrow := (refundable_updating h.sound h.left h.mem h.id h.reservation []).row
      refine sweeps_bind.mpr (sweeps_of_solos ((solos_flush ?_).mpr ?_))
      · -- the update to submitted is accepted
        exact ⟨verdict_setWithdrawal hrow rfl, trivial⟩
      · have hloaded : Loaded st row (WithdrawalSet.apply
            { status := .submitted, submittedAt := some t, updatedAt := t' } row.loaded) :=
          ⟨h.sound, h.left, h.mem, rfl, rfl⟩
        refine sweeps_bind.mpr (sweeps_callRailOutcome hpayment ?_ fun x hx => ?_)
        · -- the rail could not be reached
          exact sweeps_compensate hloaded [_] hends fun hcode => absurd hcode hopen
        · -- what follows is decided by the answer of the rail
          cases x with
          | ok reference =>
              exact sweeps_complete hloaded [_] (.inl ⟨hpending, .inl ⟨_, hx⟩⟩)
                fun hcode => .inr (.inl ⟨_, hx, hcode⟩)
          | error code =>
              exact sweeps_compensate hloaded [_] hends
                fun hcode => .inr (.inr (.inl ⟨_, hx, hcode⟩))

/-- A withdrawal that is left as it is. -/
theorem ended_of_mayStay (h : MayStay E st.db row) : Concluded E st row (st.updating row.id []) :=
  .stays h (.refl _)

/-- A withdrawal without a reference of the rail is refunded after the hard timeout. -/
theorem sweeps_timeout (h : Loaded st row row.loaded) (hsubmitted : row.status = .submitted)
    (hnone : nonEmpty? row.externalReference = none) {t : Time} (ht : E.time t) :
    Sweeps E (if row.loaded.updatedAt < t - minutes hardTimeoutMinutes then
        compensate row.loaded "TIMEOUT"
      else pure ()) (fun _ => Concluded E st row) (fun _ => RolledBack E st row)
      (st.updating row.id []) := by
  have hcode : ¬ ¬ varchar 50 "TIMEOUT" = true := by decide +kernel
  split
  · next hpast =>
    refine sweeps_compensate h _ (fun hfree => ?_) fun hmisfit => absurd hmisfit hcode
    exact .inr (.inr ⟨hsubmitted, hnone, hfree, t, ht, hpast⟩)
  · next hpast =>
    exact sweeps_pure.mpr (ended_of_mayStay (.inr (.inr (.inr ⟨hsubmitted, .inr ⟨t, ht, hpast⟩⟩))))

/-- A withdrawal that may have reached the rail. -/
theorem sweeps_recoverSubmitted (h : Loaded st row row.loaded)
    (hsubmitted : row.status = .submitted) (hstatus : ∃ s, E.status s) :
    Sweeps E (recoverSubmitted row.loaded) (fun _ => Concluded E st row)
      (fun _ => RolledBack E st row) (st.updating row.id []) := by
  refine sweeps_bind.mpr (sweeps_now fun t ht => ?_)
  have hloaded : nonEmpty? row.loaded.externalReference = nonEmpty? row.externalReference := rfl
  rw [hloaded]
  -- without a reference only the age of the row counts
  cases hreference : nonEmpty? row.externalReference with
  | none => exact sweeps_timeout h hsubmitted hreference ht
  | some reference =>
      have hsome : nonEmpty? row.externalReference ≠ none := by simp [hreference]
      have hstays : MayStay E st.db row := .inr (.inr (.inr ⟨hsubmitted, .inl hsome⟩))
      have hends {s : RailStatus} (hs : E.status s)
          (hstate : s.state = "completed" ∨ s.state = "failed") :
          MayEnd E st.db row := .inr (.inl ⟨hsubmitted, hsome, s, hs, hstate⟩)
      refine sweeps_bind.mpr (sweeps_try.mpr (sweeps_bind.mpr (sweeps_queryStatus hstatus
        fun s hs => sweeps_pure.mpr ?_)))
      dsimp only
      -- the rail has completed it, has failed it, or does not know yet
      split
      · next hcompleted => exact sweeps_complete h _ (hends hs (.inl hcompleted)) fun _ => hstays
      · split
        · next hfailed =>
          exact sweeps_compensate h _ (fun _ => hends hs (.inr hfailed)) fun _ => hstays
        · exact sweeps_pure.mpr (ended_of_mayStay hstays)

/-- The row with an identifier is the only one. -/
theorem withdrawalById_of_mem {db : Database} (hids : (db.withdrawals.map (·.id)).Nodup)
    (hrow : row ∈ db.withdrawals) : db.withdrawalById row.id = some row := by
  have hsome : (db.withdrawalById row.id).isSome := List.find?_isSome.mpr ⟨row, hrow, by simp⟩
  obtain ⟨found, hfound⟩ := Option.isSome_iff_exists.mp hsome
  rw [Database.withdrawalById] at hfound
  have hid : found.id = row.id := by simpa using List.find?_some hfound
  rw [Database.withdrawalById, hfound,
    List.inj_on_of_nodup_map hids (List.mem_of_find?_eq_some hfound) hrow hid]

/-- What a sweep does with an unfinished withdrawal. -/
theorem sweeps_resolveOne (cb : CircuitBreaker) (hdb : st.db.Sound st.issued)
    (hwrites : st.writes = []) (hleft : st.issued.length + 8 ≤ 2 ^ 128)
    (hrow : row ∈ st.db.withdrawals)
    (hopen : ¬ row.status.Terminal) (hpayment : ∃ x, E.payment x) (hstatus : ∃ s, E.status s) :
    Sweeps E (resolveOne cb row.id) (fun _ => Outcome E st row) (fun _ => Outcome E st row) st := by
  -- the transaction starts without updates
  have hst : st = st.updating row.id [] := by
    rw [Solo.updating, List.map_nil, ← hwrites]
  have hloaded : Loaded st row row.loaded := ⟨hdb, hleft, hrow, rfl, rfl⟩
  have hfound : st.view.withdrawalById row.id = some row := by
    rw [Solo.view, hwrites]
    exact withdrawalById_of_mem hdb.ids hrow
  refine sweeps_begin (sweeps_bind.mpr (sweeps_of_solos ?_))
  refine (solos_perform (o := .lockWithdrawal row.id) (a := some row) trivial
    (by rintro ⟨⟩) fun r => ?_).mpr ?_
  · -- the row can be locked, as nobody else runs
    rw [← hfound]
    exact Iff.rfl
  · dsimp only [Solo.after]
    cases hcase : row.status with
    | pending =>
        have hrule := sweeps_recoverPending cb hloaded hcase hpayment
        rw [← hst] at hrule
        exact hrule
    | submitted =>
        have hrule := sweeps_recoverSubmitted hloaded hcase hstatus
        rw [← hst] at hrule
        exact hrule
    -- a finished withdrawal is not claimed
    | completed => exact absurd (.inl hcase) hopen
    | failed => exact absurd (.inr hcase) hopen

end Resolve

/-! ## A batch -/

section Batch

variable {st : Solo} {cb : CircuitBreaker} {ids : List UUID} {t : Time}

/-- Resolving an unfinished withdrawal leaves fewer of them. -/
theorem Resolves.length_unfinished {id : UUID} {T : Transaction} {ids : List UUID} {db : Database}
    (h : Resolves id T ids) {row : Withdrawal Ticks} (hrow : row ∈ db.withdrawals)
    (hid : row.id = id)
    (hopen : ¬ row.status.Terminal) :
    (db.applyAll T.writes).unfinished.length < db.unfinished.length := by
  -- a row that is unfinished after the transaction was not touched by it
  have hkept (r : Withdrawal Ticks) (hr : ¬ (T.update r).status.Terminal) : T.update r = r := by
    by_cases heq : r.id = id
    · exact absurd (h.terminal heq) hr
    · exact h.update_of_ne heq
  have hfilter : ((db.applyAll T.writes).unfinished).length =
      (db.unfinished.filter fun r => ¬ (T.update r).status.Terminal).length := by
    rw [Database.unfinished, Database.unfinished, h.withdrawals, List.filter_map, List.length_map,
      List.filter_filter]
    refine congrArg List.length (List.filter_congr fun r _ => ?_)
    by_cases hr : (T.update r).status.Terminal
    · simp [hr]
    · simp [hr, hkept r hr ▸ hr]
  rw [hfilter, List.length_filter_lt_length_iff_exists]
  -- and the resolved one is among the unfinished ones before it
  exact ⟨row, List.mem_filter.mpr ⟨hrow, by simpa using hopen⟩, by simpa using h.terminal hid⟩

/-- A batch of unfinished withdrawals, in tables that are sound, with enough fresh identifiers. -/
structure Batch (st : Solo) (ids : List UUID) : Prop where
  sound : st.db.Sound st.issued
  writes : st.writes = []
  left : st.issued.length + 8 * ids.length ≤ 2 ^ 128
  nodup : ids.Nodup
  rows : ∀ id ∈ ids, ∃ row ∈ st.db.withdrawals, row.id = id ∧ ¬ row.status.Terminal

namespace Batch

variable {id : UUID}

/-- The first withdrawal of the batch can be dealt with. -/
theorem left_head (h : Batch st (id :: ids)) : st.issued.length + 8 ≤ 2 ^ 128 := by
  have hleft := h.left
  rw [List.length_cons] at hleft
  omega

/-- The rest of the batch, after its first withdrawal was left as it is. -/
theorem stays (h : Batch st (id :: ids)) {issued : List UUID}
    (hdrawn : DrawnSince st.issued issued []) :
    Batch { st with issued := issued, writes := [] } ids where
  sound := { h.sound with names := h.sound.names.mono hdrawn.kept }
  writes := rfl
  left := by
    have hleft := h.left
    have hfew := hdrawn.few
    rw [List.length_cons] at hleft
    dsimp only
    omega
  nodup := (List.nodup_cons.mp h.nodup).2
  rows := fun id' hid => h.rows id' (List.mem_cons_of_mem _ hid)

/-- The rest of the batch, after its first withdrawal was resolved. -/
theorem ends (h : Batch st (id :: ids)) {T : Transaction} {pkeys issued : List UUID}
    (hT : Resolves id T pkeys) (hdrawn : DrawnSince st.issued issued pkeys) :
    Batch { st with db := st.db.applyAll T.writes, issued := issued, writes := [] } ids where
  sound := hT.sound h.sound hdrawn
  writes := rfl
  left := by
    have hleft := h.left
    -- the transaction has drawn at most eight identifiers
    have hfew := hdrawn.few
    rw [List.length_cons] at hleft
    dsimp only
    omega
  nodup := (List.nodup_cons.mp h.nodup).2
  rows := by
    intro id' hid
    obtain ⟨row, hrow, hrowId, hopen⟩ := h.rows id' (List.mem_cons_of_mem _ hid)
    -- the batch has no row twice
    have hne : row.id ≠ id := by
      rintro rfl
      exact (List.nodup_cons.mp h.nodup).1 (hrowId ▸ hid)
    refine ⟨row, ?_, hrowId, hopen⟩
    rw [hT.withdrawals]
    exact List.mem_map.mpr ⟨row, hrow, hT.update_of_ne hne⟩

end Batch

/-- A withdrawal that is due and can be refunded does not stay unfinished. -/
theorem not_resolvable_of_mayStay {db : Database} {row : Withdrawal Ticks}
    (h : MayStay (.answering t) db row) : ¬ db.Resolvable t row := by
  rintro ⟨hdue, hfree⟩
  rcases h with htaken | ⟨reference, hfits, hmisfit⟩ | ⟨code, hfits, hmisfit⟩ | ⟨hsubmitted, hlate⟩
  · exact htaken hfree
  · exact hmisfit hfits
  · exact hmisfit hfits
  · rcases hdue with hpending | ⟨-, hnone, hpast⟩
    · cases hpending.symm.trans hsubmitted
    · rcases hlate with hsome | ⟨t', ht, hnot⟩
      · exact hsome hnone
      · have hle : t ≤ t' := ht
        exact hnot (hpast.trans_le (sub_le_sub_right hle _))

/-- A batch leaves at most as many unfinished withdrawals, and fewer if one of them can be
resolved. -/
theorem sweeps_resolveAll (h : Batch st ids) :
    Sweeps (.answering t) (resolveAll cb ids)
      (fun _ st' => st'.db.unfinished.length ≤ st.db.unfinished.length ∧
        ((∃ row ∈ st.db.withdrawals, row.id ∈ ids ∧ st.db.Resolvable t row) →
          st'.db.unfinished.length < st.db.unfinished.length))
      (fun _ _ => False) st := by
  induction ids generalizing st with
  | nil =>
      refine sweeps_pure.mpr ⟨le_rfl, ?_⟩
      rintro ⟨row, -, hmem, -⟩
      cases hmem
  | cons id ids ih =>
      obtain ⟨row, hrow, rfl, hopen⟩ := h.rows id List.mem_cons_self
      have hpayment : ∃ x, (Surroundings.answering t).payment x :=
        ⟨.error "", (by decide +kernel : varchar 50 "" = true)⟩
      have hone := sweeps_resolveOne cb h.sound h.writes h.left_head hrow hopen hpayment
        ⟨⟨"", none⟩, trivial⟩
      -- whatever becomes of the first withdrawal, the others follow
      have hrest (st₁ : Solo) (hst₁ : Outcome (.answering t) st row st₁) :
          Sweeps (.answering t) (resolveAll cb ids)
            (fun _ st' => st'.db.unfinished.length ≤ st.db.unfinished.length ∧
              ((∃ r ∈ st.db.withdrawals, r.id ∈ row.id :: ids ∧ st.db.Resolvable t r) →
                st'.db.unfinished.length < st.db.unfinished.length))
            (fun _ _ => False) st₁ := by
        cases hst₁ with
        | stays hstays hdrawn =>
            refine Contract.wp_mono _ _ (fun _ st' hst' => ⟨hst'.1, ?_⟩) (fun _ _ h => h)
              (ih (h.stays hdrawn))
            rintro ⟨r, hr, hmem, hresolvable⟩
            refine hst'.2 ⟨r, hr, ?_, hresolvable⟩
            refine (List.mem_cons.mp hmem).resolve_left fun heq => ?_
            obtain rfl := List.inj_on_of_nodup_map h.sound.ids hr hrow heq
            exact not_resolvable_of_mayStay hstays hresolvable
        | ends _ hT hdrawn =>
            have hfewer := hT.length_unfinished hrow rfl hopen
            refine Contract.wp_mono _ _ (fun _ st' hst' => ?_) (fun _ _ h => h)
              (ih (h.ends hT hdrawn))
            exact ⟨hst'.1.trans hfewer.le, fun _ => hst'.1.trans_lt hfewer⟩
      refine sweeps_bind.mpr (sweeps_try.mpr (Contract.wp_mono _ _ (fun _ st₁ hst₁ => ?_)
        (fun _ st₁ hst₁ => ?_) hone))
      · exact hrest st₁ hst₁
      · exact sweeps_pure.mpr (hrest st₁ hst₁)

/-- Surroundings that resolve nothing that they do not have to: no time passes, the database chooses
the given rows, and the rail rejects every payment and has not decided about any. -/
def Surroundings.stubborn (t : Time) (ids : List UUID) : Surroundings where
  time t' := t' = t
  batch ids' := ids' = ids
  payment x := x = .error "TIMEOUT"
  status s := s = ⟨"processing", none⟩

/-- They do nothing that could not happen. -/
theorem allows_of_stubborn {l : Event} (h : (Surroundings.stubborn t ids).Allows l) :
    (Surroundings.answering t).Allows l := by
  cases l with
  | call i o r =>
      cases o with
      | claimStuck cutoff limit => exact fun _ _ => trivial
      | sendWithdrawal id amount destination =>
          obtain ⟨x, rfl, hr⟩ := h
          have hfits : varchar 50 "TIMEOUT" = true := by decide +kernel
          exact ⟨.error "TIMEOUT", hfits, hr⟩
      | queryStatus reference =>
          obtain ⟨s, -, hr⟩ := h
          exact ⟨s, trivial, hr⟩
      | _ => trivial
  | _ => trivial

/-- What they resolve is due and can be refunded. -/
theorem resolvable_of_mayEnd {db : Database} {row : Withdrawal Ticks}
    (h : MayEnd (.stubborn t ids) db row) : db.Resolvable t row := by
  rcases h with ⟨hpending, ⟨reference, hok⟩ | hfree⟩ | ⟨-, -, s, hs, hdecided⟩ |
    ⟨hsubmitted, hnone, hfree, t', ht', hpast⟩
  · cases hok
  · exact ⟨.inl hpending, hfree⟩
  · have hstate : s.state = "processing" := congrArg RailStatus.state hs
    rw [hstate] at hdecided
    exact absurd hdecided (by decide)
  · have ht : t' = t := ht'
    exact ⟨.inr ⟨hsubmitted, hnone, ht ▸ hpast⟩, hfree⟩

/-- A batch of which nothing can be resolved can leave the tables as they are. -/
theorem sweeps_resolveAll_stubborn {chosen : List UUID} (h : Batch st ids)
    (hnone : ∀ row ∈ st.db.withdrawals, row.id ∈ ids → ¬ st.db.Resolvable t row) :
    Sweeps (.stubborn t chosen) (resolveAll cb ids) (fun _ st' => st'.db = st.db) (fun _ _ => False)
      st := by
  induction ids generalizing st with
  | nil => exact sweeps_pure.mpr rfl
  | cons id ids ih =>
      obtain ⟨row, hrow, rfl, hopen⟩ := h.rows id List.mem_cons_self
      have hone := sweeps_resolveOne cb (E := .stubborn t chosen) h.sound h.writes h.left_head
        hrow hopen ⟨_, rfl⟩ ⟨_, rfl⟩
      have hrest (st₁ : Solo) (hst₁ : Outcome (.stubborn t chosen) st row st₁) :
          Sweeps (.stubborn t chosen) (resolveAll cb ids) (fun _ st' => st'.db = st.db)
            (fun _ _ => False) st₁ := by
        -- the first withdrawal is not resolved, so the tables stay as they are
        cases hst₁ with
        | stays _ hdrawn =>
            exact ih (h.stays hdrawn) fun r hr hmem => hnone r hr (List.mem_cons_of_mem _ hmem)
        | ends hends _ _ =>
            exact absurd (resolvable_of_mayEnd hends) (hnone row hrow List.mem_cons_self)
      refine sweeps_bind.mpr (sweeps_try.mpr (Contract.wp_mono _ _ (fun _ st₁ hst₁ => ?_)
        -- whether its recovery ends or raises, the loop goes on
        (fun _ st₁ hst₁ => ?_) hone))
      · exact hrest st₁ hst₁
      · exact sweeps_pure.mpr (hrest st₁ hst₁)

end Batch

/-! ## The choice of the batch -/

/-- The withdrawals that the search matches although the sweep may leave them as they are. -/
def Database.unresolvable (db : Database) (clock : Time) : List (Withdrawal Ticks) :=
  (db.stuck clock).filter fun row => ¬ db.Resolvable clock row

section Choice

variable {db : Database} {issued : List UUID} {clock : Time} {limit : ℕ} {ids : List UUID}

/-- Every choice contains a withdrawal that can be resolved, if there are fewer others than matching
withdrawals, and fewer than the limit. -/
theorem exists_resolvable (hids : (db.withdrawals.map (·.id)).Nodup)
    (hfew : (db.unresolvable clock).length < min limit (db.stuck clock).length)
    (hclaims : db.Claims (clock - minutes stuckThresholdMinutes) limit ids) :
    ∃ row ∈ db.withdrawals, row.id ∈ ids ∧ db.Resolvable clock row := by
  by_contra hnone
  have hmem : ids ⊆ (db.unresolvable clock).map (·.id) := by
    intro id hid
    obtain ⟨row, hrow, rfl⟩ := List.mem_map.mp (hclaims.stuck id hid)
    refine List.mem_map_of_mem (List.mem_filter.mpr ⟨hrow, ?_⟩)
    simpa using fun hresolvable => hnone ⟨row, List.mem_of_mem_filter hrow, hid, hresolvable⟩
  have hle := (List.subperm_of_subset hclaims.nodup hmem).length_le
  rw [List.length_map] at hle
  -- so the limit is not reached, and the choice consists of all matching withdrawals
  have hall : (db.stuck clock).map (·.id) ⊆ ids := fun id hid => hclaims.all (by omega) id hid
  have hstuck : ((db.stuck clock).map (·.id)).Nodup := hids.sublist (List.filter_sublist.map _)
  have hge := (List.subperm_of_subset hstuck hall).length_le
  rw [List.length_map] at hge
  omega

/-- Otherwise there is a choice without one. -/
theorem exists_unresolvable (hids : (db.withdrawals.map (·.id)).Nodup)
    (hmany : min limit (db.stuck clock).length ≤ (db.unresolvable clock).length) :
    ∃ ids, db.Claims (clock - minutes stuckThresholdMinutes) limit ids ∧
      ∀ row ∈ db.withdrawals, row.id ∈ ids → ¬ db.Resolvable clock row := by
  have hstuck : ((db.stuck clock).map (·.id)).Nodup := hids.sublist (List.filter_sublist.map _)
  have hsub : ((db.unresolvable clock).map (·.id)).Sublist ((db.stuck clock).map (·.id)) :=
    List.filter_sublist.map _
  refine ⟨((db.unresolvable clock).map (·.id)).take limit, ?_, ?_⟩
  · refine ⟨(hstuck.sublist hsub).sublist (List.take_sublist _ _),
      fun id hid => hsub.subset (List.mem_of_mem_take hid), List.length_take_le _ _,
      fun hlt id hid => ?_⟩
    rw [List.length_take, List.length_map] at hlt
    -- all matching withdrawals are of this kind
    have hall : (db.unresolvable clock).map (·.id) = (db.stuck clock).map (·.id) := by
      refine hsub.eq_of_length_le ?_
      rw [List.length_map, List.length_map]
      omega
    rw [hall, List.take_of_length_le]
    · exact hid
    · rw [← hall, List.length_map]
      omega
  · intro row hrow hmem
    obtain ⟨row', hrow', hid⟩ := List.mem_map.mp (List.mem_of_mem_take hmem)
    obtain ⟨hmatch, hnot⟩ := List.mem_filter.mp hrow'
    obtain rfl := List.inj_on_of_nodup_map hids (List.mem_of_mem_filter hmatch) hrow hid
    simpa using hnot

end Choice

/-! ## A sweep -/

section Sweep

variable {sha256 : String → String} {c : Wallet} {cb : CircuitBreaker}

/-- `Wallet.Sweep sha256 c cb P`: a sweep that starts in configuration `c`, where no other process
acts and the rail answers, comes to its end in a state that satisfies `P`, whichever rows the
database returns. -/
def Wallet.Sweep (sha256 : String → String) (c : Wallet) (cb : CircuitBreaker) (P : State → Prop) :
    Prop :=
  (wallet sha256).AtOnce
    (fun w l => Answered c.size w l ∧ (Surroundings.answering c.shared.clock).Allows l) c.size
    (recoverStuckWithdrawals cb) (fun _ w => P w) { c.toWorld with size := c.size + 1 }

/-- What a sweep does once it has read the clock. -/
def recoverSince (cb : CircuitBreaker) (clock : Time) : Program Unit := do
  let stuckIds ← begin (claimStuck (clock - minutes stuckThresholdMinutes) batchLimit)
  resolveAll cb stuckIds

/-- The world in which a sweep has read the clock. -/
def Wallet.swept (sha256 : String → String) (c : Wallet) : State :=
  (wallet sha256).afterCall { c.toWorld with size := c.size + 1 } c.size .now (.ok c.shared.clock)

/-- A sweep begins with reading the clock. -/
theorem sweep_iff {P : State → Prop} : Wallet.Sweep sha256 c cb P ↔
    (wallet sha256).Alone
      (fun w l => Answered c.size w l ∧ (Surroundings.answering c.shared.clock).Allows l) c.size
      (recoverSince cb c.shared.clock) (fun _ w => P w) (c.swept sha256) := by
  constructor
  · exact fun h => h.2 (.ok c.shared.clock) ⟨.proceed, rfl⟩ ⟨trivial, trivial⟩
  · intro h
    refine ⟨⟨.ok c.shared.clock, ⟨.proceed, rfl⟩, trivial, trivial⟩, fun r hends _ => ?_⟩
    obtain rfl := ends_now hends
    exact h

/-- What a sweep works on at its start. -/
theorem at_swept (sha256 : String → String) (hquiet : Quiet c) {E : Surroundings}
    (htime : E.time c.shared.clock) : E.At c.size c.solo (c.swept sha256) := by
  have hstart : E.At c.size c.solo { c.toWorld with size := c.size + 1 } :=
    ⟨{ db := rfl
       writes := hquiet.writes c.size
       issued := rfl
       redis := fun _ => .inl rfl
       locks := fun j _ => hquiet.locks j
       others := fun j _ => hquiet.writes j }, htime⟩
  exact hstart.after sha256 (o := .now) ⟨_, htime, rfl⟩

/-- The batch of a sweep consists of unfinished withdrawals. -/
theorem batch_of_claims {st : Solo} {ids : List UUID} {cutoff : Time}
    (hdb : st.db.Sound st.issued) (hwrites : st.writes = [])
    (hleft : st.issued.length + 8 * batchLimit ≤ 2 ^ 128)
    (hclaims : st.db.Claims cutoff batchLimit ids) : Batch st ids where
  sound := hdb
  writes := hwrites
  left := by
    have hlength := hclaims.length
    omega
  nodup := hclaims.nodup
  rows := by
    intro id hid
    obtain ⟨row, hrow, rfl⟩ := List.mem_map.mp (hclaims.stuck id hid)
    obtain ⟨hmem, hmatch⟩ := List.mem_filter.mp hrow
    exact ⟨row, hmem, rfl, (of_decide_eq_true hmatch).1⟩

/-- The claim of a batch leaves the tables alone. -/
theorem sweeps_recoverSince {E : Surroundings} {st : Solo} {t : Time} {Q : Solo → Prop}
    (hwrites : st.writes = [])
    (hsome : ∃ ids, st.db.Claims (t - minutes stuckThresholdMinutes) batchLimit ids ∧ E.batch ids)
    (h : ∀ ids, st.db.Claims (t - minutes stuckThresholdMinutes) batchLimit ids → E.batch ids →
      Sweeps E (resolveAll cb ids) (fun _ => Q) (fun _ _ => False) st) :
    Sweeps E (recoverSince cb t) (fun _ => Q) (fun _ _ => False) st := by
  have hview : st.view = st.db := by
    rw [Solo.view, hwrites, Database.applyAll_nil]
  have hsame : ({ st with db := st.view, writes := [] } : Solo) = st := by
    rw [hview, ← hwrites]
  refine sweeps_bind.mpr
    (sweeps_begin (sweeps_claimStuck (by rwa [hview]) fun ids hids hbatch => ?_))
  rw [hview] at hids
  rw [hsame]
  exact h ids hids hbatch

section Result

variable (hdb : c.shared.db.Sound c.shared.issued) (hquiet : Quiet c)
  (hleft : c.shared.issued.length + 8 * batchLimit ≤ 2 ^ 128)

include hdb hquiet hleft

/-- With few withdrawals of the other kind, a sweep leaves fewer unfinished withdrawals. -/
theorem sweep_of_few (hfew : (c.shared.db.unresolvable c.shared.clock).length <
    min batchLimit (c.shared.db.stuck c.shared.clock).length) :
    Wallet.Sweep sha256 c cb
      fun w => w.shared.db.unfinished.length < c.shared.db.unfinished.length := by
  have hsweeps : Sweeps (.answering c.shared.clock) (recoverSince cb c.shared.clock)
      (fun _ st' => st'.db.unfinished.length < c.shared.db.unfinished.length) (fun _ _ => False)
      c.solo := by
    -- the database chooses some batch
    obtain ⟨ids, hclaims⟩ := Database.exists_claims hdb.ids
      (c.shared.clock - minutes stuckThresholdMinutes) batchLimit
    refine sweeps_recoverSince rfl ⟨ids, hclaims, trivial⟩ fun ids hclaims _ => ?_
    -- whichever it is, one of its rows can be resolved
    have hresolvable := exists_resolvable hdb.ids hfew hclaims
    exact Contract.wp_mono _ _ (fun _ st' hst' => hst'.2 hresolvable) (fun _ _ h => h)
      (sweeps_resolveAll (batch_of_claims hdb rfl hleft hclaims))
  have htime (s s' : Shared) (hs : env s s') (ht : c.shared.clock ≤ s.clock) :
      c.shared.clock ≤ s'.clock := by
    obtain ⟨clock, redis, rfl, hclock, -⟩ := hs
    exact le_trans ht hclock
  -- what the sweep does in the model of one process it does in the wallet when it is alone
  have halone := (simulates_sweeping sha256 _ (fun _ _ h => h) htime c.size).alone
    (fun _ st' => st'.db.unfinished.length < c.shared.db.unfinished.length)
    (Contract.wp_mono _ _ (fun _ _ h => h) (fun _ _ h => h.elim) hsweeps)
    (at_swept sha256 hquiet (le_refl c.shared.clock))
  refine sweep_iff.mpr (Alone.mono halone fun out w hpost => ?_)
  obtain ⟨st, hat, hless⟩ := hpost
  rwa [hat.1.db]

/-- With many of them, the database can choose so that the sweep leaves the tables as they are. -/
theorem not_sweep_of_many (hmany : min batchLimit (c.shared.db.stuck c.shared.clock).length ≤
    (c.shared.db.unresolvable c.shared.clock).length) :
    ¬ Wallet.Sweep sha256 c cb
      fun w => w.shared.db.unfinished.length < c.shared.db.unfinished.length := by
  intro hprogress
  obtain ⟨ids, hclaims, hnone⟩ := exists_unresolvable hdb.ids hmany
  have hstall : Sweeps (.stubborn c.shared.clock ids) (recoverSince cb c.shared.clock)
      (fun _ st' => st'.db = c.shared.db) (fun _ _ => False) c.solo := by
    refine sweeps_recoverSince rfl ⟨ids, hclaims, rfl⟩ fun ids' hclaims' hbatch => ?_
    obtain rfl : ids' = ids := hbatch
    exact sweeps_resolveAll_stubborn (batch_of_claims hdb rfl hleft hclaims') hnone
  have halone := (simulates_sweeping sha256 (fun _ _ => False) (fun _ _ h => h.elim)
    (fun _ _ h => h.elim) c.size).alone (fun _ st' => st'.db = c.shared.db)
    (Contract.wp_mono _ _ (fun _ _ h => h) (fun _ _ h => h.elim) hstall)
    (at_swept sha256 hquiet rfl)
  -- one and the same execution makes progress and leaves the tables alone
  obtain ⟨-, w, hless, st, hat, hsame⟩ := Alone.exists_common
    (fun w l h => ⟨h.1, allows_of_stubborn h.2⟩) (sweep_iff.mp hprogress) halone
  rw [hat.1.db, hsame] at hless
  exact lt_irrefl _ hless

/-- A sweep is sure to leave fewer unfinished withdrawals exactly if fewer of the matching
withdrawals than its limit, and not all of them, are such that it can leave them as they are. This
holds for all tables that the schema allows, at every instant and whatever the state of the circuit
breaker is. -/
theorem sweep_progresses_iff :
    Wallet.Sweep sha256 c cb
        (fun w => w.shared.db.unfinished.length < c.shared.db.unfinished.length) ↔
      (c.shared.db.unresolvable c.shared.clock).length <
        min batchLimit (c.shared.db.stuck c.shared.clock).length := by
  constructor
  · intro hprogress
    by_contra hmany
    exact not_sweep_of_many hdb hquiet hleft (not_lt.mp hmany) hprogress
  · exact sweep_of_few hdb hquiet hleft

end Result

end Sweep

/-! ## Examples -/

/-- The creator of the withdrawal stops before it submits it. Six minutes later a sweep resolves the
withdrawal. -/
theorem sweep_progresses_iff_pending : ∃ c, Reaches Sha256.hexdigest c ∧
    c.shared.db.unfinished.length = 1 ∧
      Wallet.Sweep Sha256.hexdigest c {} fun w => w.shared.db.unfinished.length < 1 := by
  obtain ⟨c, hc, hidle, hleft, hone, hfew⟩ := reaches_of_played
    (P := fun c => (∀ i < c.size, (c.sess i).locks = [] ∧ (c.sess i).writes.isEmpty = true) ∧
      c.shared.issued.length + 8 * batchLimit ≤ 2 ^ 128 ∧ c.shared.db.unfinished.length = 1 ∧
      (c.shared.db.unresolvable c.shared.clock).length <
        min batchLimit (c.shared.db.stuck c.shared.clock).length)
    (show (played anyStep (reservedSchedule ++ [.stop 2, .env (.wait 360000000)])).any _ = true by
      decide +kernel)
  have hquiet : Quiet c :=
    quiet_of_lt hc fun i hi => ⟨(hidle i hi).1, List.isEmpty_iff.mp (hidle i hi).2⟩
  have hsweep : Wallet.Sweep Sha256.hexdigest c {}
      fun w => w.shared.db.unfinished.length < c.shared.db.unfinished.length :=
    (sweep_progresses_iff (sound_of_reaches hc) hquiet hleft).mpr hfew
  rw [hone] at hsweep
  exact ⟨c, hc, hone, hsweep⟩

section Stalled

/-- A withdrawal of ten dollars that was last updated at instant 0. The first one is pending, the
others are submitted. -/
def stalledWithdrawal (n : ℕ) : Withdrawal Ticks where
  id := ⟨BitVec.ofNat 128 (100 + n)⟩
  accountId := ⟨1⟩
  amount := 100000
  currency := "USD"
  status := if n = 0 then .pending else .submitted
  destinationType := "bank_transfer"
  destinationDetails := .obj [("iban", .str "DE0012")]
  idempotencyKey := "withdrawal-" ++ toString n
  createdAt := 0
  submittedAt := if n = 0 then none else some 0
  updatedAt := 0

/-- A leg of its reservation. -/
def stalledLeg (n : ℕ) (id : ℕ) (account : UUID) (direction : Direction) : LedgerEntry Ticks where
  id := ⟨BitVec.ofNat 128 id⟩
  transactionId := ⟨BitVec.ofNat 128 (400 + n)⟩
  accountId := account
  direction := direction
  amount := 100000
  currency := "USD"
  entryType := .withdrawal
  referenceId := some (stalledWithdrawal n).id
  createdAt := 0

/-- Twenty-one withdrawals of one account, one of them pending. -/
def stalledDb : Database where
  rows := ((List.range 21).flatMap fun n =>
      [.withdrawal (stalledWithdrawal n), .ledger (stalledLeg n (200 + n) ⟨1⟩ .debit),
        .ledger (stalledLeg n (300 + n) systemAccountId .credit)]) ++
    [.account ⟨⟨1⟩, some ⟨1000⟩, "active", 0, 0⟩, .account ⟨systemAccountId, none, "active", 0, 0⟩]

/-- Ten minutes later. -/
def stalled : Wallet where
  shared := { db := stalledDb, clock := 600000000, issued := (List.range 500).map fun n =>
    ⟨BitVec.ofNat 128 n⟩ }
  sess := fun _ => {}
  size := 0
  pool := fun _ => none

/-- The tables of the stalled sweep are ones that the schema allows. -/
theorem sound_stalled : stalled.shared.db.Sound stalled.shared.issued where
  system := by decide +kernel
  stored := by
    have hall : ∀ row ∈ stalled.shared.db.withdrawals,
        0 < row.amount ∧ row.amount.natAbs < 10 ^ 19 ∧ varchar 3 row.currency = true := by
      decide +kernel
    exact fun row hrow => ⟨(hall row hrow).1, (hall row hrow).2.1, (hall row hrow).2.2⟩
  accounts := by decide +kernel
  ids := by decide +kernel
  names := by
    have hall : ∀ k ∈ stalled.shared.db.keys,
        (match k with
        | .pkey _ id => decide (id ∈ stalled.shared.issued)
        | _ => true) = true := by
      decide +kernel
    intro t id hmem
    have hid := hall _ hmem
    simpa only [decide_eq_true_eq] using hid

/-- The pending withdrawal could be resolved, but the batch can consist of the twenty others. -/
theorem sweep_stalls : ∃ c : Wallet, c.shared.db.Sound c.shared.issued ∧ Quiet c ∧
    (∃ row ∈ c.shared.db.stuck c.shared.clock, row.Due c.shared.clock ∧
      c.shared.db.reversalLegs row.id = []) ∧
    ¬ Wallet.Sweep Sha256.hexdigest c {}
      fun w => w.shared.db.unfinished.length < c.shared.db.unfinished.length := by
  have hquiet : Quiet stalled := ⟨fun _ => rfl, fun _ => rfl⟩
  have hdue : ∃ row ∈ stalled.shared.db.stuck stalled.shared.clock, row.Due stalled.shared.clock ∧
      stalled.shared.db.reversalLegs row.id = [] := by
    decide +kernel
  have hmany : min batchLimit (stalled.shared.db.stuck stalled.shared.clock).length ≤
      (stalled.shared.db.unresolvable stalled.shared.clock).length := by
    decide +kernel
  have hleft : stalled.shared.issued.length + 8 * batchLimit ≤ 2 ^ 128 := by
    rw [stalled, List.length_map, List.length_range]
    decide
  exact ⟨stalled, sound_stalled, hquiet, hdue, not_sweep_of_many sound_stalled hquiet hleft hmany⟩

end Stalled

end MiniWallet

import MiniWallet.Ledger.Narration
import MiniWallet.Safety.Refunds

/-!
# The transactional outbox

A domain row and the event about it are committed in one transaction or not at all. So in every
reachable state the outbox and the domain tables tell the same story.

* `facts_reported`: the outbox reports exactly the facts of the domain tables.
* `TransactionalOutbox`: the outbox matches the domain tables, event by event and row by row.
* `outbox_transactional`: it does so in every reachable state.
-/

namespace MiniWallet

open Numeric Process System State

variable {sha256 : String → String} {t₀ : Time} {ok : State → Event → Prop} {c : Wallet}

/-! ## Events under their types -/

/-- The event is published on the topic and under the type of its payload. -/
structure OutboxRow.Typed (o : OutboxRow) : Prop where
  topic : o.topic = o.payload.payload.topic
  eventType : o.eventType = o.payload.payload.eventType
  envelopeType : o.payload.eventType = o.payload.payload.eventType

/-- What a transaction publishes is published under its type. -/
theorem Narrated.typed {σ : Session} {T : Transaction} (h : Narrated σ T) :
    ∀ o ∈ T.events, o.Typed := by
  have hpublished : ∀ {event : OutboxRow} {payload : EventPayload},
      event.Publishes σ.drawn payload → ∀ o ∈ [event], o.Typed := by
    intro event payload hevent o ho
    obtain rfl := List.mem_singleton.mp ho
    obtain ⟨htopic, htype, henvelope, rfl, -⟩ := hevent
    exact ⟨htopic, htype, henvelope⟩
  cases h with
  | empty | submitted => exact fun o ho => nomatch ho
  | reserved hevent => exact hpublished hevent
  | opened _ hevent | seeded _ hevent | transferFailed _ hevent | transferred _ hevent
  | depositRejected _ hevent | deposited _ hevent | compensated _ hevent => exact hpublished hevent
  | completed _ _ hevent => exact hpublished hevent

/-- Every event of the outbox is published under its type. -/
theorem outbox_typed (h : WalletRun sha256 t₀ ok c) : ∀ o ∈ c.shared.db.outbox, o.Typed := by
  refine database_invariant (P := fun db => ∀ o ∈ db.outbox, o.Typed) (fun o ho => nomatch ho) ?_ h
  intro c i T hT hP o ho
  rw [Database.outbox_post, List.mem_append] at ho
  rcases ho with ho | ho
  · exact hT.narrated.typed o ho
  · exact hP o ho

/-! ## Facts -/

/-- In every run the outbox reports exactly the facts of the domain tables. -/
theorem facts_reported (h : WalletRun sha256 t₀ ok c) :
    c.shared.db.reported.Perm c.shared.db.facts := by
  refine database_invariant (P := fun db => db.reported.Perm db.facts) (.refl _) ?_ h
  intro c i T hT hP
  rw [Database.reported_post, hT.narrated.facts hT.justified]
  exact (hP.append_left _).trans (Database.facts_post _ T hT.new_deposit).symm

/-- In every run no deposit is left pending: it is settled in the transaction that inserts it. -/
theorem deposits_settled (h : WalletRun sha256 t₀ ok c) :
    ∀ d ∈ c.shared.db.deposits, d.status ≠ .pending := by
  refine database_invariant (P := fun db => ∀ d ∈ db.deposits, d.status ≠ .pending)
    (fun d hd => nomatch hd) ?_ h
  intro c i T hT hP d hd
  rw [Database.deposits_post _ T hT.new_deposit, List.mem_append, List.mem_map] at hd
  rcases hd with ⟨d', hd', rfl⟩ | hd
  · cases hT.justified with
    | depositRejected _ hstatus | deposited _ _ hstatus =>
        obtain rfl := List.mem_singleton.mp hd'
        simp [Deposit.map, DepositSet.apply, hstatus]
    | _ => cases hd'
  · exact hP d hd

/-! ## Completed withdrawals -/

/-- The event says that the withdrawal has completed. -/
def OutboxRow.Completes {α : Type} (o : OutboxRow) (w : Withdrawal α) : Prop :=
  ∃ p, o.payload.payload = .withdrawalCompleted p ∧ p.withdrawalId = w.id.str ∧
    p.accountId = w.accountId.str

/-- Rows that move the same are completed by the same events. -/
theorem OutboxRow.Completes.congr {α β : Type} {o : OutboxRow} {w : Withdrawal α}
    {w' : Withdrawal β} (h : o.Completes w) (hid : w'.id = w.id)
    (haccount : w'.accountId = w.accountId) : o.Completes w' := by
  obtain ⟨p, hp, hwithdrawal, hacc⟩ := h
  exact ⟨p, hp, by rw [hid]; exact hwithdrawal, by rw [haccount]; exact hacc⟩

/-- What an update keeps of a withdrawal. -/
theorem Transaction.update_accountId {α : Type} (T : Transaction) (w : Withdrawal α) :
    (T.update w).accountId = w.accountId :=
  congrArg (·.source) (T.update_reservation w)

/-- The row of a withdrawal that a process holds. -/
theorem row_of_holds (h : WalletRun sha256 t₀ ok c) {i : ℕ} {w : Withdrawal Decimal}
    (hw : (c.sess i).Holds w) :
    ∃ row ∈ c.shared.db.withdrawals, row.id = w.id ∧ row.accountId = w.accountId := by
  rcases hw with howned | ⟨row, hrow, hreservation⟩
  · obtain ⟨row, hrow, hreservation⟩ := known_of_owned h howned
    exact ⟨row, hrow, Option.some.inj (congrArg Movement.reference hreservation),
      congrArg (·.source) hreservation⟩
  · exact ⟨row, (reread_current h hrow).2,
      (Option.some.inj (congrArg Movement.reference hreservation)).symm,
      (congrArg (·.source) hreservation).symm⟩

/-- A transaction that tells of the completion of a withdrawal holds its row. -/
theorem Commits.completes_known {i : ℕ} {T : Transaction} (hT : Commits sha256 t₀ ok c i T)
    {o : OutboxRow} (ho : o ∈ T.events) {p : WithdrawalCompletedPayload}
    (hp : o.payload.payload = .withdrawalCompleted p) :
    ∃ row ∈ c.shared.db.withdrawals, o.Completes row := by
  cases hT.narrated with
  | @completed w _ _ _ _ hholds _ hevent =>
      obtain rfl := List.mem_singleton.mp ho
      obtain ⟨row, hrow, hid, haccount⟩ := row_of_holds hT.run hholds
      exact ⟨row, hrow, _, hevent.payload, by rw [hid], by rw [haccount]⟩
  | empty | submitted => cases ho
  | reserved hevent | opened _ hevent | seeded _ hevent | transferFailed _ hevent
  | transferred _ hevent | depositRejected _ hevent | deposited _ hevent | compensated _ hevent =>
      obtain rfl := List.mem_singleton.mp ho
      rw [hevent.payload] at hp
      cases hp

/-- A transaction that completes a withdrawal tells so. -/
theorem Commits.completes {i : ℕ} {T : Transaction} (hT : Commits sha256 t₀ ok c i T)
    {row : Withdrawal Ticks} (hrow : row ∈ c.shared.db.withdrawals)
    (hcompleted : (T.update row).status = .completed) :
    row.status = .completed ∨ ∃ o ∈ T.events, o.Completes row := by
  rcases T.update_cases row with hsame | ⟨before, set, hu, hstatus⟩
  · rw [hsame] at hcompleted
    exact .inl hcompleted
  · rw [hcompleted] at hstatus
    cases hT.narrated with
    -- the completion of a withdrawal that the process holds, with its event
    | @completed w _ _ _ event hholds _ hevent =>
        obtain ⟨row', hrow', hid, haccount⟩ := row_of_holds hT.run hholds
        have hsame : row' = row :=
          withdrawal_unique hT.run row' hrow' row hrow
            (hid.trans (Transaction.last_of_updates hu _ rfl).1)
        rw [← hsame]
        exact .inr ⟨event, List.mem_singleton_self _, _, hevent.payload, by rw [hid],
          by rw [haccount]⟩
    -- other updates set another status
    | submitted =>
        cases hT.justified with
        | submitted _ _ _ _ hsubmits =>
            obtain ⟨-, rfl⟩ := Transaction.last_of_updates hu [] rfl
            rw [hsubmits.1] at hstatus
            cases hstatus
    | compensated _ _ =>
        cases hT.justified with
        | compensated _ _ _ _ _ _ hfails | recoveredCompensated _ _ _ _ hfails =>
            obtain ⟨-, rfl⟩ := Transaction.last_of_updates hu _ rfl
            rw [hfails.1] at hstatus
            cases hstatus
    | _ => cases hu

/-- In every run the completion of every completed withdrawal is reported, and only withdrawals that
exist are reported to have completed. -/
theorem completions_reported (h : WalletRun sha256 t₀ ok c) :
    (∀ w ∈ c.shared.db.withdrawals, w.status = .completed →
        ∃ o ∈ c.shared.db.outbox, o.Completes w) ∧
      ∀ o ∈ c.shared.db.outbox, ∀ p, o.payload.payload = .withdrawalCompleted p →
        ∃ w ∈ c.shared.db.withdrawals, o.Completes w := by
  refine database_invariant (P := fun db =>
    (∀ w ∈ db.withdrawals, w.status = .completed → ∃ o ∈ db.outbox, o.Completes w) ∧
      ∀ o ∈ db.outbox, ∀ p, o.payload.payload = .withdrawalCompleted p →
        ∃ w ∈ db.withdrawals, o.Completes w)
    ⟨fun w hw => (nomatch hw), fun o ho => (nomatch ho)⟩ ?_ h
  rintro c i T hT ⟨hrows, hevents⟩
  have hupdate (row : Withdrawal Ticks) (o : OutboxRow) (ho : o.Completes row) :
      o.Completes (T.update row) := ho.congr (T.update_id row) (T.update_accountId row)
  rw [Database.outbox_post]
  refine ⟨fun w hw hcompleted => ?_, fun o ho p hp => ?_⟩
  · rcases Database.mem_withdrawals_post _ T hw with ⟨w', hw', rfl⟩ | ⟨row, hrow, rfl⟩
    · -- a new withdrawal is pending
      have hpending : w'.stored.status = .pending := hT.justified.status_of_mem hw'
      rw [hcompleted] at hpending
      cases hpending
    · have hreported : ∃ o ∈ T.events ++ c.shared.db.outbox, o.Completes row := by
        -- it was completed before, or by this transaction
        rcases hT.completes hrow hcompleted with hold | ⟨o, ho, hcompletes⟩
        · obtain ⟨o, ho, hcompletes⟩ := hrows row hrow hold
          exact ⟨o, List.mem_append_right _ ho, hcompletes⟩
        · exact ⟨o, List.mem_append_left _ ho, hcompletes⟩
      obtain ⟨o, ho, hcompletes⟩ := hreported
      exact ⟨o, ho, hupdate row o hcompletes⟩
  · -- the event was there before, or is written by this transaction
    have hknown : ∃ row ∈ c.shared.db.withdrawals, o.Completes row := by
      rcases List.mem_append.mp ho with ho | ho
      · exact hT.completes_known ho hp
      · exact hevents o ho p hp
    obtain ⟨row, hrow, hcompletes⟩ := hknown
    refine ⟨T.update row, ?_, hupdate row o hcompletes⟩
    rw [Database.withdrawals_post]
    exact List.mem_append_right _ (List.mem_map_of_mem hrow)

/-! ## The outbox and the tables -/

/-- The outbox matches the domain tables. -/
structure TransactionalOutbox (db : Database) : Prop where
  /-- Every event is published on the topic and under the type of its payload. -/
  typed : ∀ o ∈ db.outbox, o.Typed
  /-- There is one event for each account of a user, each pair of seed or reversal legs, each
  transfer and settled deposit, according to its status, and each withdrawal, with the identifiers
  of that row; and there is one such row for each event that is not about a completed withdrawal. -/
  facts : db.reported.Perm db.facts
  /-- Every deposit is settled. -/
  settled : ∀ d ∈ db.deposits, d.status ≠ .pending
  /-- There is an event for each completed withdrawal. -/
  completed : ∀ w ∈ db.withdrawals, w.status = .completed → ∃ o ∈ db.outbox, o.Completes w
  /-- An event about a completed withdrawal belongs to a withdrawal. -/
  known : ∀ o ∈ db.outbox, ∀ p, o.payload.payload = .withdrawalCompleted p →
    ∃ w ∈ db.withdrawals, o.Completes w

/-- In every reachable state, whatever was rolled back and wherever processes have crashed, the
outbox matches the domain tables: no event without its row, and no row without its event. -/
theorem outbox_transactional (h : Reaches sha256 c) : TransactionalOutbox c.shared.db := by
  obtain ⟨t₀, h⟩ := h
  exact
    { typed := outbox_typed h
      facts := facts_reported h
      settled := deposits_settled h
      completed := (completions_reported h).1
      known := (completions_reported h).2 }

/-- After a withdrawal that was completed the outbox has four events. -/
theorem outbox_transactional_completed :
    ∃ c, Reaches Sha256.hexdigest c ∧
      c.shared.db.outbox.map (·.eventType) =
        ["withdrawal.completed", "withdrawal.initiated", "seed.completed", "account.opened"] ∧
      TransactionalOutbox c.shared.db := by
  obtain ⟨c, hc, htypes⟩ := reaches_of_played
    (P := fun c => c.shared.db.outbox.map (·.eventType) =
      ["withdrawal.completed", "withdrawal.initiated", "seed.completed", "account.opened"])
    (show (played anyStep
      (submittedSchedule ++ [.call 2 (.choose (.accept "ref"))] ++ steps 2 9)).any _ = true by
      decide +kernel)
  exact ⟨c, hc, htypes, outbox_transactional hc⟩

end MiniWallet

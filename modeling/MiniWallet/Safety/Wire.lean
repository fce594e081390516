import MiniWallet.Ledger.Envelopes
import MiniWallet.Safety.ReadModel
import MiniWallet.Workers.AuditConsumer

/-!
# Events survive the wire

Whatever strings and amounts a request brings, an event that is committed is decoded to what was
published, and no consumer raises on it. The texts of an event are stored in other columns too,
where Postgres has checked them, or the wallet has written them out itself.

A `datetime` holds the years 1 to 9999, so the runs are those in which the clock shows such a time.

* `ClockInRange`: the condition on the clock.
* `enveloped_writes`: in every such run, the events that are written have the wallet's envelopes.
* `outbox_auditable`: the events of the outbox are readable for the audit trail.
* `wire_faithful`: the way of an event from `publish_event` through both consumers.
-/

namespace MiniWallet

open Numeric Process System State
open Python (InDatetime loads)

variable {sha256 : String → String} {t₀ : Time} {ok : State → Event → Prop} {c : Wallet}

/-- The clock shows a time that a `datetime` can hold. -/
def ClockInRange (w : State) (_ : Event) : Prop := InDatetime w.shared.clock

/-- Whether the clock shows a time that can be written is decidable. -/
instance (w : State) (l : Event) : Decidable (ClockInRange w l) :=
  inferInstanceAs (Decidable (InDatetime _))

/-! ## Envelopes in every run -/

/-- Under the condition on the clock, the wallet abides by the contract on envelopes. -/
theorem abides_envelopes (sha256 : String → String) (t₀ : Time) :
    ((wallet sha256).under ClockInRange).Abides (envelopes InDatetime) (.initial t₀) where
  possible := by
    intro c i o r _ hends
    cases o with
    | now =>
        obtain rfl := ends_now hends.1
        exact hends.2
    | _ => cases r <;> trivial
  safe := by
    rintro p ⟨request, rfl⟩
    exact Contract.Safe.of_wp _ _ (enveloped_program request _)

/-- In every run under the condition on the clock, the events that are written have the wallet's
envelopes. -/
theorem enveloped_writes (h : WalletRun sha256 t₀ ClockInRange c) (i : ℕ) :
    ∀ wr ∈ (c.sess i).writes, wr.Enveloped InDatetime := by
  refine h.under.each (abides_envelopes sha256 t₀)
    (J := fun _ σ => ∀ wr ∈ σ.writes, wr.Enveloped InDatetime) ?_ i
  refine { init := ?_, own := ?_, other := fun _ hJ _ => hJ _, env := fun _ hJ _ => hJ }
  · exact fun wr h => nomatch h
  · intro c i o r hcall hJ
    dsimp only [System.under, wallet]
    rcases writes_cases hcall.enabled.1 with hwrites | hwrites | ⟨wr, rfl, -, hwrites⟩
    · rw [hwrites]
      exact fun wr hwr => nomatch hwr
    · rw [hwrites]
      exact hJ i
    · rw [hwrites, List.forall_mem_append]
      exact ⟨hJ i, List.forall_mem_singleton.mpr hcall.guard⟩

/-! ## Texts that Postgres has checked -/

/-- A text that fits its column contains no null character. -/
theorem hasNull_of_varchar {n : ℕ} {s : String} (h : varchar n s = true) : hasNull s = false := by
  rw [varchar, Bool.and_eq_true, Bool.not_eq_true'] at h
  exact h.2

namespace Commits

variable {i : ℕ} {T : Transaction} (hT : Commits sha256 t₀ ok c i T)

include hT

/-- The objects that a transaction inserts fit their tables. -/
theorem fits (row : Row Decimal) (hrow : .insert row ∈ T.writes) : row.fits = true :=
  inserted_of_mem (P := fun row => row.fits = true) (fun _ _ _ hrow => hrow.fits) hT.run
    (hT.writes ▸ hrow)

/-- The updates of withdrawals fit their columns. -/
theorem set_fits (id : UUID) (set : WithdrawalSet) (hset : .setWithdrawal id set ∈ T.writes) :
    set.fits = true := by
  refine written_of_mem (P := fun wr => ∀ id set, wr = .setWithdrawal id set → set.fits = true) ?_
    hT.run (hT.writes ▸ hset) id set rfl
  rintro w i wr hverdict id set rfl
  exact fits_of_verdict hverdict

end Commits

/-- In every run the currencies of the withdrawals contain no null character. -/
theorem withdrawals_currency (h : WalletRun sha256 t₀ ok c) :
    ∀ row ∈ c.shared.db.withdrawals, hasNull row.currency = false := by
  refine database_invariant (P := fun db => ∀ row ∈ db.withdrawals, hasNull row.currency = false)
    (fun row hrow => nomatch hrow) ?_ h
  intro c i T hT hP row hrow
  rcases Database.mem_withdrawals_post _ T hrow with ⟨w, hw, rfl⟩ | ⟨old, hold, rfl⟩
  · -- the withdrawal was inserted by the transaction, and its currency fits its column
    have hinsert : .insert (.withdrawal w) ∈ T.writes := by
      cases T with
      | reserved w' e event =>
          obtain rfl := List.mem_singleton.mp hw
          exact List.mem_cons_self
      | _ => cases hw
    have hfits := hT.fits _ hinsert
    simp only [Row.fits, Bool.and_eq_true] at hfits
    exact hasNull_of_varchar hfits.1.1.1.2
  · -- an update leaves the currency as it is
    have hsame : (T.update old).currency = old.currency :=
      congrArg Movement.currency (T.update_reservation old)
    rw [hsame]
    exact hP old hold

/-- The currency of a withdrawal that a process holds contains no null character. -/
theorem currency_of_holds (h : WalletRun sha256 t₀ ok c) {i : ℕ} {w : Withdrawal Decimal}
    (hw : (c.sess i).Holds w) : hasNull w.currency = false := by
  rcases hw with howned | ⟨row, hrow, hres⟩
  · obtain ⟨row, hrow, hres⟩ := known_of_owned h howned
    have hsame : row.currency = w.currency := congrArg Movement.currency hres
    exact hsame ▸ withdrawals_currency h row hrow
  · have hsame : w.currency = row.currency := congrArg Movement.currency hres
    exact hsame ▸ withdrawals_currency h row (reread_current h hrow).2

/-! ## The events of a transaction -/

/-- The constants of the payloads contain no null character. -/
theorem hasNull_constants : hasNull "USD" = false ∧ hasNull "seed" = false ∧
    hasNull "transfer" = false ∧ hasNull "deposit" = false ∧ hasNull "withdrawal" = false ∧
    hasNull "withdrawal_reversal" = false ∧ hasNull "INSUFFICIENT_BALANCE" = false := by
  decide +kernel

section Events

variable {i : ℕ} {T : Transaction}

attribute [local simp] EventPayload.modelDump EventPayload.constants Transaction.events
  Transaction.writes Transaction.entries hasNull_constants hasNull_uuid hasNull_money hasNull_str

/-- The texts of the event of a transaction contain no null character, if the constants do not. -/
theorem Commits.nullFree (hT : Commits sha256 t₀ ok c i T) {o : OutboxRow} (ho : o ∈ T.events)
    (hconstants : ∀ s ∈ o.payload.payload.constants, hasNull s = false) :
    ∀ field ∈ o.payload.payload.modelDump, hasNull field.2 = false := by
  cases hT.narrated with
  | empty | submitted => cases ho
  | opened _ hevent =>
      obtain rfl := List.mem_singleton.mp ho
      simp only [hevent.payload, EventPayload.constants, List.forall_mem_singleton] at hconstants
      simp [hevent.payload, hconstants]
  -- the currency fits its column, and a column holds no null character
  | @depositRejected d _ _ _ _ hevent =>
      obtain rfl := List.mem_singleton.mp ho
      have hfits := hT.fits (.deposit d) (by simp)
      simp only [Row.fits, Bool.and_eq_true] at hfits
      have hcurrency := hasNull_of_varchar hfits.1.1.2
      simp only [hevent.payload, EventPayload.constants, List.forall_mem_singleton] at hconstants
      simp [hevent.payload, hcurrency, hconstants]
  | seeded _ hevent =>
      obtain rfl := List.mem_singleton.mp ho
      have hcurrency := hasNull_of_varchar (hT.entry_facts (List.mem_singleton_self _)).2.1
      simp [hevent.payload, hcurrency]
  -- the key of a transfer is a column of its row
  | @transferFailed t _ husd hevent | @transferred t _ _ husd hevent =>
      obtain rfl := List.mem_singleton.mp ho
      have hfits := hT.fits (.transfer t) (by simp)
      simp only [Row.fits, Bool.and_eq_true] at hfits
      have hkey := hasNull_of_varchar hfits.2
      simp [hevent.payload, hkey, husd]
  | @deposited d _ _ _ _ hevent =>
      obtain rfl := List.mem_singleton.mp ho
      have hfits := hT.fits (.deposit d) (by simp)
      simp only [Row.fits, Bool.and_eq_true] at hfits
      have hcurrency := hasNull_of_varchar hfits.1.1.2
      have hsource := hasNull_of_varchar hfits.1.2
      have hreference := hasNull_of_varchar hfits.2
      simp [hevent.payload, hcurrency, hsource, hreference]
  -- so are the currency and the type of the destination
  | @reserved w _ _ hevent =>
      obtain rfl := List.mem_singleton.mp ho
      have hfits := hT.fits (.withdrawal w) (by simp)
      simp only [Row.fits, Bool.and_eq_true] at hfits
      have hcurrency := hasNull_of_varchar hfits.1.1.1.2
      have htype := hasNull_of_varchar hfits.1.1.2
      simp [hevent.payload, hcurrency, htype]
  -- the reference comes from the rail, and was stored in its column
  | @completed w before set reference _ hholds hreference hevent =>
      obtain rfl := List.mem_singleton.mp ho
      have hcurrency := currency_of_holds hT.run hholds
      have hfits := hT.set_fits w.id set (by simp)
      simp only [WithdrawalSet.fits, hreference, Bool.and_eq_true] at hfits
      have hnull : hasNull reference = false := hasNull_of_varchar hfits.2
      simp [hevent.payload, hcurrency, hnull]
  | @compensated id _ e set code _ hcode hevent =>
      obtain rfl := List.mem_singleton.mp ho
      have hcurrency := hasNull_of_varchar (hT.entry_facts (List.mem_singleton_self _)).2.1
      have hfits := hT.set_fits id set (by simp)
      simp only [WithdrawalSet.fits, hcode, Bool.and_eq_true] at hfits
      have hnull : hasNull code = false := hasNull_of_varchar hfits.1
      simp [hevent.payload, hcurrency, hnull]

/-- The payload of a published event names its resource by an identifier. -/
theorem Narrated.resource {σ : Session} (h : Narrated σ T) {o : OutboxRow} (ho : o ∈ T.events) :
    ∀ name ∈ ["transfer_id", "account_id"], ∀ text ∈ o.payload.payload.modelDump.lookup name,
      ∃ id : UUID, text = id.str := by
  cases h with
  | empty | submitted => cases ho
  | opened _ hevent | seeded _ hevent | transferFailed _ hevent | transferred _ hevent
  | depositRejected _ hevent | deposited _ hevent | reserved hevent | completed _ _ hevent
  | compensated _ hevent =>
      obtain rfl := List.mem_singleton.mp ho
      simp [hevent.payload, List.lookup_cons]

/-- The event of a transaction is inserted by it. -/
theorem Transaction.insert_event {o : OutboxRow} (ho : o ∈ T.events) :
    .insert (.outbox o) ∈ T.writes := by
  cases T with
  | empty | submitted => cases ho
  | _ =>
      obtain rfl := List.mem_singleton.mp ho
      simp

/-- What is published is published under the type of its payload and with an identifier. -/
theorem Narrated.published {σ : Session} (h : Narrated σ T) {o : OutboxRow} (ho : o ∈ T.events) :
    ∃ payload, o.Publishes σ.drawn payload := by
  cases h with
  | empty | submitted => cases ho
  | opened _ hevent | seeded _ hevent | transferFailed _ hevent | transferred _ hevent
  | depositRejected _ hevent | deposited _ hevent | reserved hevent | completed _ _ hevent
  | compensated _ hevent =>
      obtain rfl := List.mem_singleton.mp ho
      exact ⟨_, hevent⟩

/-- The event of a transaction can be kept for the audit trail. -/
theorem Commits.auditable (hT : Commits sha256 t₀ ClockInRange c i T) {o : OutboxRow}
    (ho : o ∈ T.events) : o.payload.Auditable := by
  obtain ⟨payload, hevent⟩ := hT.narrated.published ho
  obtain ⟨id, -, hid⟩ := hevent.eventId
  have hinsert : .insert (.outbox o) ∈ (c.sess i).writes :=
    hT.writes ▸ Transaction.insert_event ho
  have henvelope : o.Enveloped InDatetime := enveloped_writes hT.run i _ hinsert
  have hone : hasNull "1" = false := by decide +kernel
  exact
    { eventType := by rw [hevent.envelopeType, hevent.payload]
      eventId := ⟨id, hid⟩
      actorId := henvelope.actorId
      version := henvelope.version ▸ hone
      occurredAt := henvelope.occurredAt
      payload := hT.nullFree ho henvelope.constants
      resource := hT.narrated.resource ho }

end Events

/-- In every run under the condition on the clock, the events of the outbox can be kept for the
audit trail. -/
theorem outbox_auditable (h : WalletRun sha256 t₀ ClockInRange c) :
    ∀ o ∈ c.shared.db.outbox, o.payload.Auditable := by
  refine database_invariant (P := fun db => ∀ o ∈ db.outbox, o.payload.Auditable)
    (fun o ho => nomatch ho) ?_ h
  intro c i T hT hP o ho
  rw [Database.outbox_post, List.mem_append] at ho
  rcases ho with ho | ho
  · exact hT.auditable ho
  · exact hP o ho

/-! ## The consumers -/

/-- In every run under the condition on the clock, whatever strings and amounts the requests
brought: the message of an event of the outbox is decoded, and read as the payload that was
published, by the model that is registered for its type, in the envelope that was published; and
neither consumer raises on it, whatever its table holds. -/
theorem wire_faithful (h : ReachesUnder sha256 ClockInRange c) {limit : ℕ} (hlimit : 2 ≤ limit) :
    ∀ o ∈ c.shared.db.outbox, ∃ event raw,
      loads limit (some o.payload.message) = .ok event ∧
      parseMessage event = some (raw, some o.payload.payload) ∧
      o.payload.eventType = o.payload.payload.eventType ∧ raw.Carries o.payload ∧
      (∀ table, ∃ table',
        ActivityConsumer.processMessage c.shared.db table event = .ok table') ∧
      ∀ table, ∃ table', AuditConsumer.process table event = .ok table' := by
  obtain ⟨t₀, h⟩ := h
  intro o ho
  -- the event can be kept by the audit consumer and read by the other one
  have haudit := outbox_auditable h o ho
  obtain ⟨rows, hrows⟩ := outbox_readable h o ho
  -- its message is decoded, and parsed as the envelope that was published
  obtain ⟨event, hloads, hdecodes⟩ := o.payload.decoded_message hlimit
  obtain ⟨raw, hparse, hraw⟩ := parseMessage_decodes hdecodes haudit.eventType
  obtain ⟨row, -, hkept⟩ := AuditConsumer.process_auditable haudit hdecodes
  refine ⟨event, raw, hloads, hparse, haudit.eventType, hraw, fun table => ?_,
    fun table => ⟨_, hkept table⟩⟩
  rw [ActivityConsumer.processMessage_eq hdecodes haudit.eventType haudit.occurredAt]
  exact ActivityConsumer.process_readable hrows table

/-- The four events of a transfer, from the outbox to both consumers. -/
theorem wire_faithful_transferred :
    ∃ c, ReachesUnder Sha256.hexdigest ClockInRange c ∧ c.shared.db.outbox.length = 4 ∧
      ∀ o ∈ c.shared.db.outbox, ∃ event raw,
        loads 1000 (some o.payload.message) = .ok event ∧
        parseMessage event = some (raw, some o.payload.payload) ∧
        o.payload.eventType = o.payload.payload.eventType ∧ raw.Carries o.payload ∧
        (∀ table, ∃ table',
          ActivityConsumer.processMessage c.shared.db table event = .ok table') ∧
        ∀ table, ∃ table', AuditConsumer.process table event = .ok table' := by
  obtain ⟨c, hc, hlen⟩ := reachesUnder_of_played (P := fun c => c.shared.db.outbox.length = 4)
    (show (played ClockInRange (transferredSchedule ⟨false, 10, 0⟩)).any _ = true
      by decide +kernel)
  exact ⟨c, hc, hlen, wire_faithful hc (by decide)⟩

end MiniWallet

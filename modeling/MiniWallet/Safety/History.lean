import Mathlib.Data.List.Perm.Basic
import MiniWallet.Safety.ReadModel

/-!
# The history agrees with the ledger

The ledger keeps the amount of a request as its column rounds it, half away from zero. An event
carries the amount as Python prints it with four places, rounded half to even, apart from deposits,
whose events carry the amount as it is. So the read model shows what the ledger holds as long as no
other amount lies halfway between two multiples of the smallest unit of which the lower one is even.

* `RoundedAlike`: the condition on steps, that no such amount is committed.
* `history_told`: under the condition the lines of the outbox are the legs of the ledger, those of
  the system account apart.
* `history_agrees`: under the condition, once every event has been delivered, the history of every
  account agrees with its legs and its balance.
* `history_disagrees`: without it an account shows 1.0000 in its history and 1.0001 in its balance.
-/

namespace MiniWallet

open Numeric Process System State

variable {sha256 : String → String} {t₀ : Time} {ok : State → Event → Prop} {c : Wallet}

/-! ## Items -/

/-- What a history shows of one movement of money on one account. -/
structure HistoryItem where
  account : UUID
  direction : Direction
  amount : Ticks
  currency : String
  entryType : String
  reference : Option UUID
deriving DecidableEq, Repr

/-- The item that a row of the read model shows. -/
def TransactionActivity.item (r : TransactionActivity Ticks) : HistoryItem where
  account := r.accountId
  direction := r.direction
  amount := r.amount
  currency := r.currency
  entryType := r.entryType
  reference := r.referenceId

/-- The item that a leg of the ledger calls for. -/
def LedgerEntry.item (l : LedgerEntry Ticks) : HistoryItem where
  account := l.accountId
  direction := l.direction
  amount := l.amount
  currency := l.currency
  entryType := l.entryType.str
  reference := l.referenceId

namespace HistoryItem

/-- What an item contributes to a balance. -/
def signed (x : HistoryItem) : Ticks :=
  match x.direction with
  | .credit => x.amount
  | .debit => -x.amount

/-- The item in the words of an event, without the event. -/
def line (x : HistoryItem) : ActivityLine where
  eventId := ""
  account := x.account.str
  direction := x.direction
  amount := some x.amount
  currency := x.currency
  entryType := x.entryType
  reference := x.reference.map UUID.str
  occurredAt := 0

/-- Different items are written in different lines. -/
theorem line_injective : Function.Injective line := by
  rintro ⟨a, d, n, cur, ty, ref⟩ ⟨a', d', n', cur', ty', ref'⟩ h
  simp only [line, ActivityLine.mk.injEq, Option.some.injEq, true_and, and_true] at h
  obtain ⟨haccount, rfl, rfl, rfl, rfl, href⟩ := h
  rw [UUID.str_injective haccount, Option.map_injective UUID.str_injective href]

end HistoryItem

/-- The line without the event that it belongs to. -/
def ActivityLine.bare (l : ActivityLine) : ActivityLine := { l with eventId := "", occurredAt := 0 }

/-- The items of a movement. -/
def Movement.items (m : Movement Ticks) : List HistoryItem :=
  [⟨m.source, .debit, m.amount, m.currency, m.kind.str, m.reference⟩,
    ⟨m.target, .credit, m.amount, m.currency, m.kind.str, m.reference⟩]

/-- The legs of an entry call for the items of its movement. -/
theorem Entry.items_legs (e : Entry Ticks) : e.legs.map (·.item) = e.movement.items := by
  have h := e.double
  simp [legs, LedgerEntry.item, Movement.items, h.debit_direction, h.credit_direction,
    h.debit_account, h.credit_account, h.debit_amount, h.credit_amount, h.debit_currency,
    h.credit_currency, h.debit_kind, h.credit_kind, h.debit_reference, h.credit_reference]

/-! ## What a transaction tells -/

/-- The line is not about the system account. -/
def ActivityLine.ofUser (l : ActivityLine) : Bool := l.account ≠ systemAccountId.str

/-- The item is not about the system account. -/
def HistoryItem.ofUser (x : HistoryItem) : Bool := x.account ≠ systemAccountId

/-- An item and its line are about the same account. -/
theorem HistoryItem.ofUser_line (x : HistoryItem) : x.line.ofUser = x.ofUser := by
  rw [ActivityLine.ofUser, ofUser, decide_eq_decide, line, not_iff_not]
  exact UUID.str_injective.eq_iff

/-- It does not matter whether items or their lines are filtered. -/
theorem HistoryItem.filter_lines (xs : List HistoryItem) :
    (xs.map (·.line)).filter (·.ofUser) = (xs.filter (·.ofUser)).map (·.line) := by
  simp only [List.filter_map, Function.comp_def, ofUser_line]

/-- The step commits no amount, other than that of a deposit, that Python and the ledger round
differently. -/
def RoundedAlike (w : State) : Event → Prop
  | .call i .commit _ => ∀ row ∈ (w.sess i).inserted, ∀ l ∈ row.ledger?, l.entryType ≠ .deposit →
      l.amount.RoundsAlike moneyPlaces
  | _ => True

/-- What a transaction moves, if its commit satisfies the condition, is rounded alike. -/
theorem Commits.rounded {i : ℕ} {T : Transaction} (hT : Commits sha256 t₀ ok c i T)
    (hok : ∀ w l, ok w l → RoundedAlike w l) {e : Entry Decimal} (he : e ∈ T.entries)
    (hkind : e.movement.kind ≠ .deposit) : e.movement.amount.RoundsAlike moneyPlaces := by
  have hcondition : ∀ row ∈ (c.sess i).inserted, ∀ l ∈ row.ledger?, l.entryType ≠ .deposit →
      l.amount.RoundsAlike moneyPlaces := hok _ _ hT.allowed
  rw [← e.double.debit_amount]
  refine hcondition (.ledger e.debit) ?_ e.debit rfl (e.double.debit_kind ▸ hkind)
  exact List.mem_filterMap.mpr ⟨_, (hT.insert_legs he).1, rfl⟩

/-- An amount that is rounded alike is read back from an event as the ledger stores it. -/
theorem ofText_money_of_rounded {d : Decimal} (h : d.RoundsAlike moneyPlaces) :
    Ticks.ofText (money d) = some (Ticks.ofDecimal d) := by
  rw [ofText_money, Decimal.roundHalfEven_eq_roundHalfAway h, Ticks.ofDecimal]

section Told

attribute [local simp] Transaction.events Transaction.entries EventEnvelope.lines ActivityLine.bare
  ActivityLine.ofUser HistoryItem.line Movement.items Entry.items_legs EntryType.str

/-- The event of a transaction tells the users of its legs. -/
theorem Commits.told {i : ℕ} {T : Transaction} (hT : Commits sha256 t₀ ok c i T)
    (hok : ∀ w l, ok w l → RoundedAlike w l) :
    ((T.events.flatMap (·.payload.lines)).map (·.bare)).filter (·.ofUser) =
      (((T.entries.flatMap fun e => e.stored.legs).map (·.item)).map (·.line)).filter
        (·.ofUser) := by
  have hround {m : Movement Decimal} {e : Entry Decimal} (he : e ∈ T.entries)
      (hmove : e.movement = m) (hkind : m.kind ≠ .deposit) :
      Ticks.ofText (money m.amount) = some (Ticks.ofDecimal m.amount) := by
    rw [← hmove] at hkind ⊢
    exact ofText_money_of_rounded (hT.rounded hok he hkind)
  have hjustified := hT.justified
  cases hT.narrated with
  | empty => rfl
  | submitted => rfl
  | opened _ hevent => simp [hevent.payload]
  | transferFailed _ hevent => simp [hevent.payload]
  | depositRejected _ hevent => simp [hevent.payload]
  | completed _ _ hevent => simp [hevent.payload]
  | @seeded e _ _ _ hevent =>
      cases hjustified with
      | seeded _ hkind href hsource =>
          have hamount := hround (List.mem_singleton_self _) rfl (by simp [hkind])
          have hlegs : e.stored.movement = { e.movement.stored with
              source := systemAccountId, kind := .seed, reference := none } := by
            rw [← hkind, ← href, ← hsource]
            rfl
          simp [hevent.payload, hamount, hlegs, Movement.map]
  | @transferred t e _ _ hevent =>
      cases hjustified with
      | transferred _ _ _ hmove =>
          have hamount : Ticks.ofText (money t.amount) = some (Ticks.ofDecimal t.amount) :=
            hround (m := t.movement) (List.mem_singleton_self _) hmove (by simp [Transfer.movement])
          have hlegs : e.stored.movement = t.movement.stored := congrArg Movement.stored hmove
          simp [hevent.payload, hamount, hlegs, Movement.map, Transfer.movement]
  | @deposited d e _ _ _ hevent =>
      cases hjustified with
      | deposited _ _ _ hmove =>
          -- the event carries the amount as it is
          have hamount := (denotes_str d.amount).ofText
          have hlegs : e.stored.movement = d.movement.stored := congrArg Movement.stored hmove
          simp [hevent.payload, hamount, hlegs, Movement.map, Deposit.movement]
  | @reserved w e _ hevent =>
      cases hjustified with
      | reserved _ _ _ _ _ hmove =>
          have hamount : Ticks.ofText (money w.amount) = some (Ticks.ofDecimal w.amount) :=
            hround (m := w.reservation) (List.mem_singleton_self _) hmove
              (by simp [Withdrawal.reservation])
          have hlegs : e.stored.movement = w.reservation.stored := congrArg Movement.stored hmove
          simp [hevent.payload, hamount, hlegs, Movement.map, Withdrawal.reservation,
            List.filter_cons]
  | @compensated id _ e _ _ _ _ hevent =>
      have hmove : ∃ w : Withdrawal Decimal, w.id = id ∧ e.movement = w.reversal := by
        cases hjustified with
        | @compensated w _ _ _ _ _ _ _ _ hrev => exact ⟨w, rfl, hrev.1⟩
        | @recoveredCompensated row _ _ _ _ _ _ _ hrev => exact ⟨row.loaded, rfl, hrev.1⟩
      obtain ⟨w, rfl, hmove⟩ := hmove
      have hamount : Ticks.ofText (money w.amount) = some (Ticks.ofDecimal w.amount) :=
        hround (m := w.reversal) (List.mem_singleton_self _) hmove (by simp [Withdrawal.reversal])
      have hlegs : e.stored.movement = w.reversal.stored := congrArg Movement.stored hmove
      simp [hevent.payload, hmove, hamount, hlegs, Movement.map, Withdrawal.reversal]

end Told

/-! ## Whole runs -/

/-- The items that the ledger calls for. -/
def Database.items (db : Database) : List HistoryItem := db.ledgerEntries.map (·.item)

/-- In every run that commits only amounts that are rounded alike, the outbox tells the users
exactly the legs of the ledger. -/
theorem history_told (hok : ∀ w l, ok w l → RoundedAlike w l) (h : WalletRun sha256 t₀ ok c) :
    (((c.shared.db.outbox.flatMap (·.payload.lines)).map (·.bare)).filter (·.ofUser)).Perm
      ((c.shared.db.items.map (·.line)).filter (·.ofUser)) := by
  refine database_invariant (P := fun db =>
    (((db.outbox.flatMap (·.payload.lines)).map (·.bare)).filter (·.ofUser)).Perm
      ((db.items.map (·.line)).filter (·.ofUser))) (.refl _) ?_ h
  intro c i T hT hP
  have hitems := ((Database.ledgerEntries_post c.shared.db T).map (·.item)).map (·.line)
  rw [Database.outbox_post, List.flatMap_append, List.map_append, List.filter_append, hT.told hok]
  refine ((hP.append_left _).trans (.of_eq ?_)).trans (hitems.filter _).symm
  rw [List.map_append, List.map_append, List.filter_append]
  rfl

/-- The read model agrees with the ledger about account `a`. -/
structure Pipeline.Agrees (p : Pipeline) (a : UUID) : Prop where
  /-- The rows of the account correspond to its legs. -/
  rows : ((p.table.filter (·.accountId = a)).map (·.item)).Perm
    ((p.wallet.shared.db.ledgerEntries.filter (·.accountId = a)).map (·.item))
  /-- Their signed sum is the balance. -/
  balance : ((p.table.filter (·.accountId = a)).map (·.item.signed)).sum =
    p.wallet.shared.db.getBalance a

/-- The items of one account, among those of the users. -/
theorem filter_ofUser {a : UUID} (ha : a ≠ systemAccountId) (xs : List HistoryItem) :
    (xs.filter (·.ofUser)).filter (·.account = a) = xs.filter (·.account = a) := by
  rw [List.filter_filter]
  refine List.filter_congr fun x _ => ?_
  by_cases hx : x.account = a
  · simp [hx, HistoryItem.ofUser, ha]
  · simp [hx]

/-- The read model agrees with the ledger once it holds the items of the users. -/
theorem Pipeline.agrees_of_perm {p : Pipeline}
    (h : ((p.table.map (·.item)).filter (·.ofUser)).Perm
      (p.wallet.shared.db.items.filter (·.ofUser)))
    {a : UUID} (ha : a ≠ systemAccountId) : p.Agrees a := by
  have hrows := h.filter (·.account = a)
  rw [filter_ofUser ha, filter_ofUser ha, Database.items, List.filter_map, List.filter_map] at hrows
  refine ⟨hrows, ?_⟩
  have hsum := (hrows.map HistoryItem.signed).sum_eq
  rw [List.map_map, List.map_map] at hsum
  exact hsum

/-- In every run that commits only amounts that are rounded alike, once every event of the outbox
has been delivered, in whatever order and however often, the read model agrees with the ledger about
every account of a user. -/
theorem history_agrees {p : Pipeline} (h : ∃ t₀, PipelineRun sha256 t₀ RoundedAlike p)
    (hall : ∀ o ∈ p.outbox, o.payload ∈ p.delivered) :
    ∀ a, a ≠ systemAccountId → p.Agrees a := by
  obtain ⟨t₀, h⟩ := h
  intro a ha
  have hcontents := (Pipeline.converged h).contents
  rw [Pipeline.processed_of_delivered hall] at hcontents
  have htable := ((hcontents.map (·.bare)).filter (·.ofUser)).trans
    (history_told (fun _ _ hstep => hstep) h.walletRun)
  refine Pipeline.agrees_of_perm ?_ ha
  -- lines differ if the items do, so that the items are the same up to their order
  refine (List.map_perm_map_iff HistoryItem.line_injective).mp ?_
  rw [← HistoryItem.filter_lines, ← HistoryItem.filter_lines, List.map_map]
  rw [List.map_map] at htable
  exact htable

/-- Whether the amounts of a commit are rounded alike is decidable. -/
instance (w : State) (l : Event) : Decidable (RoundedAlike w l) :=
  match l with
  | .call i .commit _ => inferInstanceAs (Decidable (∀ row ∈ (w.sess i).inserted, ∀ l ∈ row.ledger?,
      l.entryType ≠ .deposit → l.amount.RoundsAlike moneyPlaces))
  | .call _ .now _ | .call _ .uuid4 _ | .call _ (.cacheGet _) _ | .call _ (.cacheSet _ _) _
  | .call _ (.breaker _) _ | .call _ (.select _) _ | .call _ (.lockAccount _) _
  | .call _ (.lockWithdrawal _) _ | .call _ (.claimStuck _ _) _ | .call _ (.write _) _
  | .call _ .rollback _ | .call _ (.sendWithdrawal _ _ _) _ | .call _ (.queryStatus _) _
  | .spawn | .stop _ | .env => inferInstanceAs (Decidable True)

/-- A transfer of 10 dollars whose events are delivered out of order. -/
theorem history_agrees_transferred :
    ∃ p : Pipeline, (∃ t₀, PipelineRun Sha256.hexdigest t₀ RoundedAlike p) ∧
      (∀ o ∈ p.outbox, o.payload ∈ p.delivered) ∧ p.wallet.shared.db.getBalance ⟨1⟩ = 900000 ∧
      p.Agrees ⟨1⟩ := by
  obtain ⟨p, hp, hall, hbalance⟩ := pipelineRun_of_played [0, 2, 0, 1, 3, 2]
    (P := fun p => (∀ o ∈ p.outbox, o.payload ∈ p.delivered) ∧
      p.wallet.shared.db.getBalance ⟨1⟩ = 900000)
    (show (played RoundedAlike (transferredSchedule ⟨false, 10, 0⟩)).any _ = true by
      decide +kernel)
  exact ⟨p, hp, hall, hbalance, history_agrees hp hall ⟨1⟩ (by decide)⟩

/-- Without the condition a transfer of 1.00005 is debited as 1.0001 and shown as 1.0000. -/
theorem history_disagrees :
    ¬ ∀ p : Pipeline, (∃ t₀, PipelineRun Sha256.hexdigest t₀ anyStep p) →
      (∀ o ∈ p.outbox, o.payload ∈ p.delivered) → ∀ a, a ≠ systemAccountId → p.Agrees a := by
  intro hagrees
  obtain ⟨p, hp, hall, hbalance⟩ := pipelineRun_of_played [0, 1, 2, 3]
    (P := fun p => (∀ o ∈ p.outbox, o.payload ∈ p.delivered) ∧
      ((p.table.filter (·.accountId = ⟨1⟩)).map (·.item.signed)).sum ≠
        p.wallet.shared.db.getBalance ⟨1⟩)
    (show (played anyStep (transferredSchedule ⟨false, 100005, -5⟩)).any _ = true by
      decide +kernel)
  exact hbalance (hagrees p hp hall ⟨1⟩ (by decide)).balance

end MiniWallet

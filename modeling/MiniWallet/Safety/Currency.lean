import MiniWallet.Safety.Refunds

/-!
# One currency in the ledger

Balances are sums of amounts that do not look at the currency, so the ledger has to stay in the
supported ones. Seeds and transfers fix the currency and deposits check it. A withdrawal takes over
the currency of its request without a check.

* `SupportedWithdrawals`: the condition on steps, that no withdrawal in another currency is
  committed.
* `single_currency`: under the condition every leg of the ledger is in a supported currency.
* `single_currency_violated`: without it a withdrawal in euros is debited from a balance in dollars.
-/

namespace MiniWallet

open Numeric Process System State

variable {sha256 : String → String} {t₀ : Time} {ok : State → Event → Prop} {c : Wallet}

/-- Every leg of the ledger is in a supported currency, so that no two of them differ in it. -/
def SingleCurrency (db : Database) : Prop :=
  (∀ l ∈ db.ledgerEntries, l.currency ∈ supportedCurrencies) ∧
    ∀ l ∈ db.ledgerEntries, ∀ l' ∈ db.ledgerEntries, l.currency = l'.currency

/-- Whether the ledger has a single currency is decidable. -/
instance (db : Database) : Decidable (SingleCurrency db) :=
  inferInstanceAs (Decidable (_ ∧ _))

/-- The step does not commit a withdrawal in a currency that is not supported. -/
def SupportedWithdrawals (w : State) : Event → Prop
  | .call i .commit _ => ∀ row ∈ (w.sess i).inserted, ∀ x ∈ row.withdrawal?,
      x.currency ∈ supportedCurrencies
  | _ => True

/-- Both legs of an entry are in the currency of its movement. -/
theorem Entry.currency_of_mem {α : Type} {e : Entry α} {l : LedgerEntry α} (h : l ∈ e.legs) :
    l.currency = e.movement.currency := by
  simp only [legs, List.mem_cons, List.not_mem_nil, or_false] at h
  rcases h with rfl | rfl
  · exact e.double.debit_currency
  · exact e.double.credit_currency

/-- The withdrawal that a transaction inserts, if its commit satisfies the condition, is in a
supported currency. -/
theorem Commits.supported {i : ℕ} {T : Transaction} (hT : Commits sha256 t₀ ok c i T)
    (hok : ∀ w l, ok w l → SupportedWithdrawals w l) :
    ∀ w ∈ T.withdrawals, w.currency ∈ supportedCurrencies := by
  intro w hw
  have hcondition : ∀ row ∈ (c.sess i).inserted, ∀ x ∈ row.withdrawal?,
      x.currency ∈ supportedCurrencies := hok _ _ hT.allowed
  refine hcondition (.withdrawal w) ?_ w rfl
  rw [Session.inserted, hT.writes]
  cases T with
  | reserved w' e event =>
      obtain rfl := List.mem_singleton.mp hw
      exact List.mem_cons_self ..
  | _ => cases hw

/-- What a transaction moves is in a supported currency, if this holds of the withdrawals that it
inserts and of those that exist. -/
theorem Commits.currency {i : ℕ} {T : Transaction} (hT : Commits sha256 t₀ ok c i T)
    (hinserted : ∀ w ∈ T.withdrawals, w.currency ∈ supportedCurrencies)
    (hrows : ∀ w ∈ c.shared.db.withdrawals, w.currency ∈ supportedCurrencies) :
    ∀ e ∈ T.entries, e.movement.currency ∈ supportedCurrencies := by
  intro e he
  have hjustified := hT.justified
  cases hT.narrated with
  | seeded husd _ =>
      obtain rfl := List.mem_singleton.mp he
      rw [husd]
      decide
  | @transferred t _ _ husd _ =>
      obtain rfl := List.mem_singleton.mp he
      cases hjustified with
      | transferred _ _ _ hmove =>
          have hcurrency : t.movement.currency = "USD" := husd
          rw [hmove, hcurrency]
          decide
  | deposited hsupported _ =>
      obtain rfl := List.mem_singleton.mp he
      cases hjustified with
      | deposited _ _ _ hmove =>
          rw [hmove]
          exact hsupported
  | @reserved w _ _ _ =>
      obtain rfl := List.mem_singleton.mp he
      cases hjustified with
      | reserved _ _ _ _ _ hmove =>
          rw [hmove]
          exact hinserted w (List.mem_singleton_self _)
  | compensated _ _ =>
      -- a refund is in the currency of the withdrawal
      have hkind : e.movement.kind = .withdrawalReversal := by
        obtain rfl := List.mem_singleton.mp he
        cases hjustified with
        | compensated _ _ _ _ _ hrev | recoveredCompensated _ _ _ hrev =>
            rw [hrev.1]
            rfl
      obtain ⟨w, hw, hrev⟩ := hT.refunds e he hkind
      have hcurrency : e.movement.currency = w.currency := congrArg Movement.currency hrev.1
      rw [hcurrency]
      exact hrows w hw
  | empty | opened _ _ | transferFailed _ _ | depositRejected _ _ | submitted | completed _ _ _ =>
      cases he

/-- The legs and the withdrawals of the tables are in supported currencies. -/
theorem currencies_supported (hok : ∀ w l, ok w l → SupportedWithdrawals w l)
    (h : WalletRun sha256 t₀ ok c) :
    (∀ l ∈ c.shared.db.ledgerEntries, l.currency ∈ supportedCurrencies) ∧
      ∀ w ∈ c.shared.db.withdrawals, w.currency ∈ supportedCurrencies := by
  refine database_invariant (P := fun db =>
    (∀ l ∈ db.ledgerEntries, l.currency ∈ supportedCurrencies) ∧
      ∀ w ∈ db.withdrawals, w.currency ∈ supportedCurrencies)
    ⟨fun l hl => (nomatch hl), fun w hw => (nomatch hw)⟩ ?_ h
  rintro c i T hT ⟨hlegs, hrows⟩
  have hinserted := hT.supported hok
  -- a leg is from a transaction, or it was there before
  refine ⟨fun l hl => ?_, fun w hw => ?_⟩
  · rw [(Database.ledgerEntries_post _ T).mem_iff, List.mem_append, List.mem_flatMap] at hl
    rcases hl with ⟨e, he, hl⟩ | hl
    · rw [Entry.currency_of_mem hl]
      exact hT.currency hinserted hrows e he
    · exact hlegs l hl
  · -- a withdrawal is inserted, or it is the update of one that was there
    rcases Database.mem_withdrawals_post _ T hw with ⟨w', hw', rfl⟩ | ⟨row, hrow, rfl⟩
    · exact hinserted w' hw'
    · have hcurrency : (T.update row).currency = row.currency :=
        congrArg Movement.currency (T.update_reservation row)
      rw [hcurrency]
      exact hrows row hrow

/-- In every run that commits no withdrawal in an unsupported currency, every leg of the ledger is
in a supported currency. -/
theorem single_currency (h : ReachesUnder sha256 SupportedWithdrawals c) :
    SingleCurrency c.shared.db := by
  obtain ⟨t₀, h⟩ := h
  have hlegs := (currencies_supported (fun _ _ hstep => hstep) h).1
  refine ⟨hlegs, fun l hl l' hl' => ?_⟩
  -- there is only one supported currency
  rw [List.mem_singleton.mp (hlegs l hl), List.mem_singleton.mp (hlegs l' hl')]

/-- Whether a commit inserts withdrawals in dollars only is decidable. -/
instance (w : State) (l : Event) : Decidable (SupportedWithdrawals w l) :=
  match l with
  | .call i .commit _ => inferInstanceAs (Decidable (∀ row ∈ (w.sess i).inserted, _))
  | .call _ .now _ | .call _ .uuid4 _ | .call _ (.cacheGet _) _ | .call _ (.cacheSet _ _) _
  | .call _ (.breaker _) _ | .call _ (.select _) _ | .call _ (.lockAccount _) _
  | .call _ (.lockWithdrawal _) _ | .call _ (.claimStuck _ _) _ | .call _ (.write _) _
  | .call _ .rollback _ | .call _ (.sendWithdrawal _ _ _) _ | .call _ (.queryStatus _) _
  | .spawn | .stop _ | .env => inferInstanceAs (Decidable True)

/-- After a seed and a withdrawal in dollars the ledger has four legs. -/
theorem single_currency_reserved :
    ∃ c, ReachesUnder Sha256.hexdigest SupportedWithdrawals c ∧
      c.shared.db.ledgerEntries.length = 4 ∧ SingleCurrency c.shared.db := by
  obtain ⟨c, hc, hlen⟩ := reachesUnder_of_played
    (P := fun c => c.shared.db.ledgerEntries.length = 4)
    (show (played SupportedWithdrawals reservedSchedule).any _ = true by decide +kernel)
  exact ⟨c, hc, hlen, single_currency hc⟩

/-- Without the condition a withdrawal in euros is taken out of a balance in dollars. -/
theorem single_currency_violated :
    ¬ ∀ c, Reaches Sha256.hexdigest c → SingleCurrency c.shared.db := by
  intro hall
  obtain ⟨c, hc, hnot⟩ := reaches_of_played (P := fun c => ¬ SingleCurrency c.shared.db)
    (show (played anyStep (seededSchedule ++
      [.spawn (.request (.createWithdrawal { withdrawalOf40 with currency := "EUR" }))] ++
      steps 2 16)).any _ = true by decide +kernel)
  exact hnot (hall c hc)

end MiniWallet

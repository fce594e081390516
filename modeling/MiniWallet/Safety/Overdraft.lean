import MiniWallet.Safety.DoubleEntry

/-!
# No overdraft

The balance of an account is not stored. Every transaction that debits an account has locked it
before it read the balance, so the balance that it checked can only have grown until it commits.
Credits take no lock, and the system account is exempt.

* `balance_covered`: a balance that was read under lock is at most the committed one.
* `no_overdraft`: no account is ever overdrawn.
-/

namespace MiniWallet

open Numeric Bookkeeping Process System State

variable {sha256 : String → String} {t₀ : Time} {ok : State → Event → Prop} {c : Wallet}

/-! ## What a transaction takes from an account -/

/-- A transaction takes money from the system account, or from an account whose balance it has
checked. -/
theorem Justified.covers {σ : Session} {T : Transaction} (h : Justified σ T) :
    ∀ e ∈ T.entries, e.movement.source = systemAccountId ∨
      σ.Covers e.movement.source e.movement.amount := by
  intro e he
  cases h with
  -- a seed and a deposit are paid by the system account
  | seeded _ _ _ hsource =>
      obtain rfl := List.mem_singleton.mp he
      exact .inl hsource
  -- transfers and reservations come after a look at the balance
  | transferred _ _ _ hmove _ hcovers | reserved _ _ _ _ _ hmove _ hcovers =>
      obtain rfl := List.mem_singleton.mp he
      rw [hmove]
      exact .inr hcovers
  | deposited _ _ _ hmove =>
      obtain rfl := List.mem_singleton.mp he
      rw [hmove]
      exact .inl rfl
  -- a refund is paid by the system account too
  | compensated _ _ _ _ _ hrev | recoveredCompensated _ _ _ hrev =>
      obtain rfl := List.mem_singleton.mp he
      rw [hrev.1]
      exact .inl rfl
  | _ => cases he

/-- A transaction changes a balance by the postings of its entries. -/
theorem Database.getBalance_post (db : Database) (T : Transaction) (a : UUID) :
    (db.applyAll T.writes).getBalance a =
      balance (postings (T.entries.map Entry.stored)) a + db.getBalance a := by
  rw [getBalance_applyAll, ((legs_perm T).map _).sum_eq, ← sum_contribution_legs, List.flatMap_map]

/-- A transaction takes nothing from an account that is not the source of its entry. -/
theorem Commits.getBalance_le {i : ℕ} {T : Transaction} (hT : Commits sha256 t₀ ok c i T) {a : UUID}
    (ha : ∀ e ∈ T.entries, e.movement.source ≠ a) :
    c.shared.db.getBalance a ≤ (c.shared.db.applyAll T.writes).getBalance a := by
  rw [Database.getBalance_post]
  refine le_add_of_nonneg_left (List.sum_nonneg fun x hx => ?_)
  simp only [postings, List.map_map, List.mem_map] at hx
  obtain ⟨e, he, rfl⟩ := hx
  exact Posting.effect_nonneg (hT.positive he).le (ha e he)

/-! ## Balances that were read under lock -/

/-- A balance that a transaction has read under lock is at most the committed one, and the lock is
still held. -/
theorem balance_covered (h : WalletRun sha256 t₀ ok c) {i : ℕ} {p : UUID × Ticks}
    (hp : p ∈ (c.sess i).balances) :
    .account p.1 ∈ (c.sess i).locks ∧
      (p.1 ≠ systemAccountId → p.2 ≤ c.shared.db.getBalance p.1) := by
  refine h.each (abides sha256 t₀) (J := fun s σ => ∀ p ∈ σ.balances, .account p.1 ∈ σ.locks ∧
    (p.1 ≠ systemAccountId → p.2 ≤ s.db.getBalance p.1)) ?_ i p hp
  refine { init := ?_, own := ?_, other := ?_, env := ?_ }
  · exact fun p hp => nomatch hp
  · intro c i o r hcall hJ p hp
    dsimp only [wallet] at hp ⊢
    rcases (WalletStep.of_call hcall).commit_cases with ⟨hdb, -⟩ | ⟨T, hT, hσ, -⟩
    · rw [hdb]
      cases TxStep.of_ends hcall.enabled with
      | ended _ _ _ hbal =>
          rw [hbal] at hp
          cases hp
      | locked ls _ _ hlocks _ hbal =>
          have hold := hJ i p (hbal ▸ hp)
          exact ⟨hlocks ▸ List.mem_append_right _ hold.1, hold.2⟩
      | reread _ _ _ _ _ hlocks _ hbal | setWithdrawal _ _ _ _ hlocks _ hbal =>
          have hold := hJ i p (hbal ▸ hp)
          exact ⟨hlocks ▸ List.mem_cons_of_mem _ hold.1, hold.2⟩
      | balance a hlock _ _ hlocks _ hbal =>
          rw [hlocks]
          rcases List.mem_cons.mp (hbal ▸ hp) with rfl | hp
          · exact ⟨hlock, fun _ => le_rfl⟩
          · exact hJ i p hp
      | same _ hlocks _ hbal | aborted _ hlocks _ hbal | inserted _ _ _ hlocks _ hbal
      | setDeposit _ _ _ hlocks _ hbal => exact hlocks ▸ hJ i p (hbal ▸ hp)
    · rw [hσ] at hp
      cases hp
  · intro c i o r j hcall hJ hj p hp
    dsimp only [wallet]
    obtain ⟨hlock, hle⟩ := hJ j p hp
    refine ⟨hlock, fun ha => ?_⟩
    rcases (WalletStep.of_call hcall).commit_cases with ⟨hdb, -⟩ | ⟨T, hT, -, hs⟩
    · rw [hdb]
      exact hle ha
    · rw [hs, Shared.commit, hT.writes]
      refine (hle ha).trans (hT.getBalance_le fun e he hsource => ?_)
      -- a debit of the account would need its lock
      rcases hT.justified.covers e he with hsystem | ⟨b, hb, -⟩
      · exact ha (hsource.symm.trans hsystem)
      · have hlock' := (hJ i _ hb).1
        rw [hsource] at hlock'
        exact locks_exclusive hcall.run hj hlock hlock'
  · rintro c _ σ - hJ ⟨clock, redis, rfl, -⟩
    exact hJ

/-- The source of a transaction's entry can afford it, as it is stored, when the transaction
commits. -/
theorem Commits.affordable {i : ℕ} {T : Transaction} (hT : Commits sha256 t₀ ok c i T) :
    ∀ e ∈ T.entries, e.stored.movement.source = systemAccountId ∨
      e.stored.movement.amount ≤ c.shared.db.getBalance e.stored.movement.source := by
  intro e he
  by_cases hsystem : e.movement.source = systemAccountId
  · exact .inl hsystem
  · obtain ⟨b, hb, hexceeds⟩ := (hT.justified.covers e he).resolve_left hsystem
    have hround : Ticks.ofDecimal e.movement.amount ≤ b := Decimal.roundHalfAway_le hexceeds
    exact .inr (hround.trans ((balance_covered hT.run hb).2 hsystem))

/-! ## No overdraft -/

/-- No overdraft: in every reachable state every account but the system account has a balance that
is not negative. -/
theorem no_overdraft (h : Reaches sha256 c) :
    ∀ a, a ≠ systemAccountId → 0 ≤ c.shared.db.getBalance a := by
  obtain ⟨t₀, h⟩ := h
  refine database_invariant (P := fun db => ∀ a, a ≠ systemAccountId → 0 ≤ db.getBalance a)
    (fun a _ => le_rfl) ?_ h
  intro c i T hT hnonneg
  obtain ⟨js, hjs⟩ := books_kept hT.run
  have hbal := fun a => getBalance_eq_balance hjs.ledger a
  have hlen := T.entries_length
  match hentries : T.entries with
  -- no money moves
  | [] =>
      intro a ha
      simpa [Database.getBalance_post, hentries, postings] using hnonneg a ha
  -- one movement: its account had the amount, as its balance has not changed since it was read
  | [e] =>
      have he : e ∈ T.entries := hentries ▸ List.mem_singleton_self e
      have hpost : ∀ a, (c.shared.db.applyAll T.writes).getBalance a =
          balance (e.stored.movement.toPosting :: postings js) a := by
        intro a
        simp [Database.getBalance_post, hentries, postings, hbal]
      simp only [hpost]
      simp only [hbal] at hnonneg
      refine balance_nonneg_cons hnonneg (hT.positive he).le ?_
      exact hbal _ ▸ hT.affordable e he
  | _ :: _ :: _ => simp [hentries] at hlen

/-- An account is seeded with 100 dollars, and 40 of them are transferred. -/
theorem no_overdraft_transferred :
    ∃ c, Reaches Sha256.hexdigest c ∧ c.shared.db.getBalance ⟨1⟩ = 600000 ∧
      c.shared.db.getBalance ⟨9⟩ = 400000 ∧
      ∀ a, a ≠ systemAccountId → 0 ≤ c.shared.db.getBalance a := by
  obtain ⟨c, hc, hsource, htarget⟩ := reaches_of_played
    (P := fun c => c.shared.db.getBalance ⟨1⟩ = 600000 ∧ c.shared.db.getBalance ⟨9⟩ = 400000)
    (show (played anyStep (transferredSchedule ⟨false, 40, 0⟩)).any _ = true by decide +kernel)
  exact ⟨c, hc, hsource, htarget, no_overdraft hc⟩

end MiniWallet

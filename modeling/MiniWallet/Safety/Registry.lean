import MiniWallet.Ledger.Names
import MiniWallet.Safety.Commits

/-!
# What the statements of every run say

The primary keys in the tables have all been handed out. The statements about deposits insert them
as pending and give them their outcomes.

* `Registered`: the invariant, which also says what the programs that are still running will do.
* `within_issued`, `resolves_writes`: what it says about the tables and about the open transactions.
* `fresh_key_of_drawn`: what a process has drawn for its next row is not yet a primary key.
-/

namespace MiniWallet

open Numeric Process System State Program

/-- An operation changes the identifiers that its process has drawn as the contract says. -/
theorem drawn_after (o : Op) (r : Except Exc o.Out) (σ : Session) :
    (after o r σ).drawn = draw o r σ.drawn := by
  cases o with
  | select q =>
      cases r with
      | error e => rfl
      | ok x =>
          cases q <;> dsimp only [after, Session.settle, Session.learn, draw]
          -- a query learns balances and transfers only
          all_goals split <;> rfl
  | lockAccount id =>
      cases r with
      | error e => rfl
      | ok a => cases a <;> rfl
  | lockWithdrawal id =>
      cases r with
      | error e => rfl
      | ok row =>
          cases row with
          | none => rfl
          -- rereading a row, like a write, changes other parts of the session
          | some row => exact congrArg Log.drawn (σ.log_readAgain row)
  | write wr => exact congrArg Log.drawn (σ.log_afterWrite wr r)
  | uuid4 | commit | now | cacheGet key | claimStuck cutoff limit
  | sendWithdrawal id amount destination => cases r <;> rfl
  | cacheSet key entry | breaker command | rollback | queryStatus ref => rfl

/-- What was drawn stays until it is committed. -/
theorem draw_mono {o : Op} (ho : o ≠ .commit) (r : Except Exc o.Out) (own : List UUID) :
    ∀ id ∈ own, id ∈ draw o r own := by
  intro id hid
  cases o with
  | uuid4 =>
      cases r with
      | error e => exact hid
      | ok id' => exact List.mem_cons_of_mem _ hid
  | commit => exact absurd rfl ho
  | _ => exact hid

/-- The primary keys that are in use have been handed out, those of the open transactions were drawn
for them, and the open transactions give deposits their outcomes. -/
structure Registered (c : Wallet) : Prop where
  db : Within c.shared.db.keys c.shared.issued
  sess : ∀ i, ∀ wr ∈ (c.sess i).writes, Within wr.keys (c.sess i).drawn ∧ wr.Resolves
  pool : ∀ i p, c.pool i = some p → names.Safe draw p (c.sess i).drawn

namespace Registered

variable {sha256 : String → String} {t₀ : Time} {c c' : Wallet} {l : Event}

/-- An operation of a process keeps the invariant. -/
theorem call {i : ℕ} {o : Op} {next : Except Exc o.Out → Program Response} {r : Except Exc o.Out}
    (h : Registered c) (hrun : WalletRun sha256 t₀ anyStep c) (hp : c.pool i = some (.call o next))
    (hends : Ends c.toWorld i o r) :
    Registered { (wallet sha256).afterCall c.toWorld i o r with
      pool := Function.update c.pool i (some (next r)) } := by
  obtain ⟨hguard, hnext⟩ := (Contract.wp_call _ _).mp (h.pool i _ hp)
  have hcall : WalletCall sha256 t₀ anyStep c i o r := hrun.call (abides sha256 t₀) hp hends trivial
  refine ⟨?_, fun j => ?_, fun j p hj => ?_⟩
  · dsimp only [afterCall, wallet]
    have hmono : ∀ id ∈ c.shared.issued, id ∈ (effect o r (c.sess i) c.shared).issued :=
      fun id => issued_mono hcall
    rcases effect_db o r (c.sess i) c.shared with hdb | ⟨hdb, -⟩
    · rw [hdb]
      exact h.db.mono hmono
    · -- a commit makes the keys of the open transaction those of the tables
      rw [hdb]
      intro t id hid
      rw [(c.shared.db.keys_applyAll _).mem_iff, List.mem_append, List.mem_flatMap] at hid
      rcases hid with ⟨wr, hwr, hid⟩ | hid
      · exact hmono id (issued_of_drawn hrun i id ((h.sess i wr hwr).1 t id hid))
      · exact hmono id (h.db t id hid)
  · dsimp only [afterCall, wallet]
    by_cases hj : j = i
    · subst hj
      rw [Function.update_self]
      rcases writes_cases hends with hw | hw | ⟨wr, rfl, -, hw⟩
      · rw [hw]
        exact fun wr hwr => nomatch hwr
      · by_cases ho : o = .commit
        · subst ho
          rw [show (after .commit r (c.sess j)).writes = [] by cases r <;> rfl]
          exact fun wr hwr => nomatch hwr
        · rw [hw, drawn_after]
          exact fun wr hwr => (h.sess j wr hwr).imp_left fun hkeys => hkeys.mono (draw_mono ho r _)
      · rw [hw]
        have hdrawn : (after (.write wr) r (c.sess j)).drawn = (c.sess j).drawn := by
          rw [drawn_after]
          rfl
        rw [hdrawn]
        intro wr' hwr'
        rcases List.mem_append.mp hwr' with hwr' | hwr'
        · exact h.sess j wr' hwr'
        · obtain rfl := List.mem_singleton.mp hwr'
          exact hguard
    · rw [Function.update_of_ne hj]
      exact h.sess j
  · dsimp only [afterCall, wallet] at hj ⊢
    by_cases hji : j = i
    · subst hji
      rw [Function.update_self] at hj
      cases hj
      rw [Function.update_self, drawn_after]
      exact hnext r trivial
    · rw [Function.update_of_ne hji] at hj
      rw [Function.update_of_ne hji]
      exact h.pool j p hj

/-- A step keeps what is known about the identifiers. -/
theorem step (h : Registered c) (hrun : WalletRun sha256 t₀ anyStep c)
    (hs : (wallet sha256).Step c l c') : Registered c' := by
  cases hs with
  | spawn hstart =>
      obtain ⟨request, rfl⟩ := hstart
      refine ⟨h.db, h.sess, fun j p hj => ?_⟩
      dsimp only at hj
      by_cases hjc : j = c.size
      · subst hjc
        rw [Function.update_self] at hj
        cases hj
        -- the program of a new process keeps the contract from its start
        exact named_program request _
      · rw [Function.update_of_ne hjc] at hj
        exact h.pool j p hj
  | call hp hends => exact h.call hrun hp hends
  | @stop i p hp =>
      refine ⟨h.db, fun j => ?_, fun j q hj => ?_⟩
      · dsimp only [afterStop]
        by_cases hji : j = i
        · subst hji
          rw [Function.update_self]
          -- what a process had written when it was stopped is gone
          exact fun wr hwr => nomatch hwr
        · rw [Function.update_of_ne hji]
          exact h.sess j
      · dsimp only [afterStop] at hj ⊢
        by_cases hji : j = i
        · subst hji
          rw [Function.update_self] at hj
          cases hj
        · rw [Function.update_of_ne hji] at hj
          rw [Function.update_of_ne hji]
          exact h.pool j q hj
  | env he =>
      obtain ⟨clock, redis, rfl, -⟩ := he
      exact ⟨h.db, h.sess, h.pool⟩

end Registered

variable {sha256 : String → String} {t₀ : Time} {c : Wallet}

/-- The invariant holds in every run. -/
theorem registered_run (h : WalletRun sha256 t₀ anyStep c) : Registered c := by
  induction h with
  | refl =>
      refine ⟨?_, fun i wr hwr => (nomatch hwr), fun i p hp => nomatch hp⟩
      simp [initial, Shared.initial, Database.migrated, Database.keys, Row.keys]
  | step hrun _ hs ih => exact ih.step hrun hs

/-- The invariant holds in every reachable state. -/
theorem registered (h : Reaches sha256 c) : Registered c := by
  obtain ⟨t₀, h⟩ := h
  exact registered_run h

/-- In every run the primary keys of the tables have been handed out. -/
theorem within_issued (h : Reaches sha256 c) : Within c.shared.db.keys c.shared.issued :=
  (registered h).db

/-- In every run the statements of the open transactions give deposits their outcomes. -/
theorem resolves_writes (h : Reaches sha256 c) {i : ℕ} {wr : Write}
    (hwr : wr ∈ (c.sess i).writes) : wr.Resolves :=
  ((registered h).sess i wr hwr).2

/-- The primary keys in the tables, apart from those of the accounts, are tracked. -/
theorem tracked_keys : Tracked sha256 t₀ anyStep fun db id =>
    ∃ t, t ≠ .accounts ∧ .pkey t id ∈ db.keys where
  init := by
    rintro id ⟨t, ht, hid⟩
    simp [Database.migrated, Database.keys, Row.keys, ht] at hid
  commit := by
    rintro c i T hT id ⟨t, ht, hid⟩
    rw [(c.shared.db.keys_applyAll _).mem_iff, List.mem_append, List.mem_flatMap] at hid
    rcases hid with ⟨wr, hwr, hid⟩ | hid
    · rw [← hT.writes] at hwr
      exact .inl (((registered_run hT.run).sess i wr hwr).1 t id hid)
    · exact .inr ⟨t, ht, hid⟩

/-- An identifier that a process has drawn for its next transaction is not yet a primary key. -/
theorem fresh_key_of_drawn (h : WalletRun sha256 t₀ anyStep c) {i : ℕ} {id : UUID}
    (hid : id ∈ (c.sess i).drawn) {t : Table} (ht : t ≠ .accounts) :
    .pkey t id ∉ c.shared.db.keys :=
  fun hkey => tracked_keys.fresh h hid ⟨t, ht, hkey⟩

end MiniWallet

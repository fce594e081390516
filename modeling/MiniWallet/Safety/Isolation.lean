import MiniWallet.App
import MiniWallet.Server.Replies

/-!
# What Postgres guarantees

Facts about every run that rest on the database alone, whatever the programs do. `TxStep` says once
what an operation can do to the open transaction of its process; everything else follows from it.

* `locks_exclusive`: no two transactions hold the same lock.
* `keys_nodup`, `keys_disjoint`: unique keys are unique, committed or not.
* `locked_of_set`: a transaction holds the locks of the withdrawals it updates.
* `reread_current`: a withdrawal that was read under lock does not change before the lock is
  released.
* `written_of_mem`: the writes of an open transaction are what Postgres has accepted.
* `checks_of_inserted`, `rows_invariant`, `refers`: rows satisfy their `CHECK` and foreign key
  constraints, and what follows from their values.
-/

namespace MiniWallet

open Numeric Process System State

variable {sha256 : String → String} {t₀ : Time} {ok : State → Event → Prop} {c : Wallet}

/-! ## What an operation does to the open transaction -/

/-- What an operation of process `i` in state `w` can do to its open transaction. -/
inductive TxStep (w : State) (i : ℕ) (σ σ' : Session) : Prop
  /-- It leaves the transaction as it is. -/
  | same : σ'.writes = σ.writes → σ'.locks = σ.locks → σ'.rows = σ.rows →
      σ'.balances = σ.balances → TxStep w i σ σ'
  /-- It ends the transaction. -/
  | ended : σ'.writes = [] → σ'.locks = [] → σ'.rows = [] → σ'.balances = [] → TxStep w i σ σ'
  /-- It aborts the transaction, which keeps its locks. -/
  | aborted : σ'.writes = [] → σ'.locks = σ.locks → σ'.rows = σ.rows → σ'.balances = σ.balances →
      TxStep w i σ σ'
  /-- It locks rows. -/
  | locked (ls : List Lock) : (∀ l ∈ ls, ¬ LockedByOther w i l) → σ'.writes = σ.writes →
      σ'.locks = ls ++ σ.locks → σ'.rows = σ.rows → σ'.balances = σ.balances → TxStep w i σ σ'
  /-- It reads a withdrawal again, under lock. -/
  | reread (row : Withdrawal Ticks) : ¬ LockedByOther w i (.withdrawal row.id) → σ.writes = [] →
      row ∈ w.shared.db.withdrawals → σ'.writes = [] →
      σ'.locks = .withdrawal row.id :: σ.locks → σ'.rows = row :: σ.rows →
      σ'.balances = σ.balances → TxStep w i σ σ'
  /-- It reads the balance of a locked account. -/
  | balance (a : UUID) : .account a ∈ σ.locks → σ.writes = [] → σ'.writes = [] →
      σ'.locks = σ.locks → σ'.rows = σ.rows →
      σ'.balances = (a, w.shared.db.getBalance a) :: σ.balances → TxStep w i σ σ'
  /-- It inserts a row. -/
  | inserted (row : Row Decimal) : Insertable w i row → σ'.writes = σ.writes ++ [.insert row] →
      σ'.locks = σ.locks → σ'.rows = σ.rows → σ'.balances = σ.balances → TxStep w i σ σ'
  /-- It updates a deposit. -/
  | setDeposit (id : UUID) (set : DepositSet) : σ'.writes = σ.writes ++ [.setDeposit id set] →
      σ'.locks = σ.locks → σ'.rows = σ.rows → σ'.balances = σ.balances → TxStep w i σ σ'
  /-- It updates a withdrawal, and locks its row. -/
  | setWithdrawal (id : UUID) (set : WithdrawalSet) : ¬ LockedByOther w i (.withdrawal id) →
      σ'.writes = σ.writes ++ [.setWithdrawal id set] → σ'.locks = .withdrawal id :: σ.locks →
      σ'.rows = σ.rows → σ'.balances = σ.balances → TxStep w i σ σ'

namespace TxStep

variable {w : State} {i : ℕ}

/-- A failed operation on the database ends the transaction. -/
theorem of_ended (σ : Session) : TxStep w i σ σ.ended := .ended rfl rfl rfl rfl

/-- A `SELECT` in a transaction. -/
theorem of_select {q : Query} {r : Except Exc q.Result} (h : Ends w i (.select q) r) :
    TxStep w i (w.sess i) (after (.select q) r (w.sess i)) := by
  rcases ends_select h with rfl | rfl
  · cases q with
    | balance a =>
        change TxStep w i (w.sess i) ((w.sess i).learn (.balance a) _)
        simp only [Session.learn]
        -- the balance of the locked account, read before any write, is remembered
        split
        · next hcond =>
            have hwrites : (w.sess i).writes = [] := by simpa using hcond.2
            refine .balance a hcond.1 hwrites hwrites rfl rfl ?_
            simp [Query.eval, view, hwrites]
        · -- any other balance is not
          exact .same rfl rfl rfl rfl
    | transferByKey key =>
        change TxStep w i (w.sess i) ((w.sess i).learn (.transferByKey key) _)
        simp only [Session.learn]
        -- a transfer that was read is not part of the transaction
        split <;> exact .same rfl rfl rfl rfl
    | _ => exact .same rfl rfl rfl rfl
  · exact of_ended _

/-- A `SELECT … FOR UPDATE` of an account in a transaction. -/
theorem of_lockAccount {id : UUID} {r : Except Exc (Option Account)}
    (h : Ends w i (.lockAccount id) r) :
    TxStep w i (w.sess i) (after (.lockAccount id) r (w.sess i)) := by
  rcases ends_lockAccount h with ⟨rfl, hfree⟩ | rfl
  · simp only [after, Session.settle]
    split
    · exact .locked [.account id] (by simpa using hfree) rfl rfl rfl rfl
    · exact .same rfl rfl rfl rfl
  · exact of_ended _

/-- A `SELECT … FOR UPDATE` of a withdrawal in a transaction. -/
theorem of_lockWithdrawal {id : UUID} {r : Except Exc (Option (Withdrawal Ticks))}
    (h : Ends w i (.lockWithdrawal id) r) :
    TxStep w i (w.sess i) (after (.lockWithdrawal id) r (w.sess i)) := by
  rcases ends_lockWithdrawal h with ⟨rfl, hfree⟩ | rfl
  · cases hrow : (view w i).withdrawalById id with
    | none => exact .same rfl rfl rfl rfl
    | some row =>
        obtain rfl : row.id = id := by simpa using List.find?_some hrow
        have hmem : row ∈ (view w i).withdrawals := List.mem_of_find?_eq_some hrow
        change TxStep w i (w.sess i) ((w.sess i).readAgain row)
        simp only [Session.readAgain]
        split
        · next hwrites =>
            have hwrites : (w.sess i).writes = [] := by simpa using hwrites
            refine .reread row hfree hwrites ?_ hwrites rfl rfl rfl
            simpa [view, hwrites] using hmem
        · exact .locked [.withdrawal row.id] (by simpa using hfree) rfl rfl rfl rfl
  · exact of_ended _

/-- A `SELECT … FOR UPDATE SKIP LOCKED` in a transaction. -/
theorem of_claimStuck {cutoff : Time} {limit : ℕ} {r : Except Exc (List UUID)}
    (h : Ends w i (.claimStuck cutoff limit) r) :
    TxStep w i (w.sess i) (after (.claimStuck cutoff limit) r (w.sess i)) := by
  rcases ends_claimStuck h with ⟨ids, rfl, -, hstuck, -⟩ | rfl
  · refine .locked (ids.map .withdrawal) ?_ rfl rfl rfl rfl
    simp only [List.mem_map, forall_exists_index, and_imp]
    rintro _ id hid rfl
    obtain ⟨row, hrow, rfl⟩ := List.mem_map.mp (hstuck id hid)
    have hstuck' : Stuck w i cutoff row := by simpa using (List.mem_filter.mp hrow).2
    exact hstuck'.2.2
  · exact of_ended _

/-- A statement in a transaction. -/
theorem of_write {wr : Write} {r : Except Exc Unit} (h : Ends w i (.write wr) r) :
    TxStep w i (w.sess i) (after (.write wr) r (w.sess i)) := by
  cases r with
  | error e =>
      change TxStep w i (w.sess i) ((w.sess i).afterWrite wr (.error e))
      unfold Session.afterWrite
      split
      · next hr => cases hr
      · -- a failure of the server has ended the transaction
        exact of_ended _
      · -- any other one has aborted it
        exact .aborted rfl rfl rfl rfl
  | ok u =>
      have hverdict : verdict w i wr = some (.ok u) := by
        rcases ends_write h with hv | hv
        · exact hv
        · cases hv
      -- a write that is accepted has passed its checks
      cases wr with
      | insert row => exact .inserted row (insertable_of_verdict hverdict) rfl rfl rfl rfl
      | setDeposit id set => exact .setDeposit id set rfl rfl rfl rfl
      | setWithdrawal id set =>
          exact .setWithdrawal id set (setWithdrawal_of_verdict hverdict).1 rfl rfl rfl rfl

/-- Every operation does one of these things to the open transaction of its process. -/
theorem of_ends {o : Op} {r : Except Exc o.Out} (h : Ends w i o r) :
    TxStep w i (w.sess i) (after o r (w.sess i)) := by
  cases o with
  | select q => exact of_select h
  | lockAccount id => exact of_lockAccount h
  | lockWithdrawal id => exact of_lockWithdrawal h
  | claimStuck cutoff limit => exact of_claimStuck h
  | write wr => exact of_write h
  | commit => cases r <;> exact .ended rfl rfl rfl rfl
  | rollback => exact of_ended _
  | cacheSet key entry => exact .same rfl rfl rfl rfl
  | breaker command => exact .same rfl rfl rfl rfl
  | queryStatus ref => exact .same rfl rfl rfl rfl
  | now => cases r <;> exact .same rfl rfl rfl rfl
  | uuid4 => cases r <;> exact .same rfl rfl rfl rfl
  | cacheGet key => cases r <;> exact .same rfl rfl rfl rfl
  | sendWithdrawal id amount destination => cases r <;> exact .same rfl rfl rfl rfl

end TxStep

/-! ## What an operation does to the tables -/

/-- The tables change only by a commit. -/
theorem effect_db (o : Op) (r : Except Exc o.Out) (σ : Session) (s : Shared) :
    (effect o r σ s).db = s.db ∨
      (effect o r σ s).db = s.db.applyAll σ.writes ∧ after o r σ = σ.commit := by
  cases o with
  | commit =>
      cases r with
      | ok u => exact .inr ⟨rfl, rfl⟩
      | error e => exact .inl rfl
  | uuid4 | cacheSet key entry | breaker command | lockWithdrawal id
  | sendWithdrawal id amount destination => cases r <;> exact .inl rfl
  | now | cacheGet key | select q | lockAccount id | claimStuck cutoff limit | write w | rollback
  | queryStatus ref => exact .inl rfl

/-- What an operation does to the writes of its transaction: a write that is added was accepted. -/
theorem writes_cases {w : State} {i : ℕ} {o : Op} {r : Except Exc o.Out} (h : Ends w i o r) :
    (after o r (w.sess i)).writes = [] ∨ (after o r (w.sess i)).writes = (w.sess i).writes ∨
      ∃ wr, o = .write wr ∧ verdict w i wr = some (.ok ()) ∧
        (after o r (w.sess i)).writes = (w.sess i).writes ++ [wr] := by
  cases o with
  | write wr =>
      -- after an error nothing of the transaction is left
      cases r with
      | error e =>
          refine .inl ?_
          change ((w.sess i).afterWrite wr (.error e)).writes = []
          unfold Session.afterWrite
          split
          · next hr => cases hr
          · rfl
          · rfl
      -- a write that has ended well was accepted in the view of the transaction
      | ok u =>
          have hverdict : verdict w i wr = some (.ok ()) := by
            rcases ends_write h with hv | hv
            · exact hv
            · cases hv
          refine .inr (.inr ⟨wr, rfl, hverdict, ?_⟩)
          cases wr <;> rfl
  | select q =>
      cases r with
      | error e => exact .inl rfl
      | ok x =>
          refine .inr (.inl ?_)
          change ((w.sess i).learn q x).writes = _
          cases q <;> simp only [Session.learn] <;> split <;> rfl
  | lockAccount id =>
      cases r with
      | error e => exact .inl rfl
      | ok a => cases a <;> exact .inr (.inl rfl)
  | lockWithdrawal id =>
      cases r with
      | error e => exact .inl rfl
      | ok row =>
          cases row with
          | none => exact .inr (.inl rfl)
          | some row =>
              -- reading a row again refreshes it, and writes nothing
              refine .inr (.inl ?_)
              change ((w.sess i).readAgain row).writes = _
              simp only [Session.readAgain]
              split <;> rfl
  | claimStuck cutoff limit =>
      cases r with
      | error e => exact .inl rfl
      | ok ids => exact .inr (.inl rfl)
  | commit => cases r <;> exact .inl rfl
  | rollback => exact .inl rfl
  | now | uuid4 | cacheGet key | sendWithdrawal id amount destination =>
      cases r <;> exact .inr (.inl rfl)
  | cacheSet key entry | breaker command | queryStatus ref => exact .inr (.inl rfl)

/-- No operation changes the clock. -/
theorem effect_clock (o : Op) (r : Except Exc o.Out) (σ : Session) (s : Shared) :
    (effect o r σ s).clock = s.clock := by
  cases o with
  | uuid4 | cacheSet key entry | breaker command | lockWithdrawal id | commit
  | sendWithdrawal id amount destination => cases r <;> rfl
  | now | cacheGet key | select q | lockAccount id | claimStuck cutoff limit | write w | rollback
  | queryStatus ref => rfl

/-- Only reading the clock changes the last time read. -/
theorem after_clockRead {w : State} {i : ℕ} {o : Op} {r : Except Exc o.Out} (h : Ends w i o r) :
    (after o r (w.sess i)).clockRead = (w.sess i).clockRead ∨
      (after o r (w.sess i)).clockRead = some w.shared.clock := by
  cases o with
  -- reading the clock
  | now =>
      have hr : r = .ok w.shared.clock := ends_now h
      subst hr
      exact .inr rfl
  | cacheSet key entry | breaker command | rollback | queryStatus ref => exact .inl rfl
  | uuid4 | cacheGet key | claimStuck cutoff limit | commit
  | sendWithdrawal id amount destination => cases r <;> exact .inl rfl
  | select q =>
      cases r with
      | error e => exact .inl rfl
      | ok x =>
          refine .inl ?_
          change ((w.sess i).learn q x).clockRead = _
          cases q <;> simp only [Session.learn] <;> split <;> rfl
  | lockAccount id =>
      cases r with
      | error e => exact .inl rfl
      | ok a => cases a <;> exact .inl rfl
  | lockWithdrawal id =>
      cases r with
      | error e => exact .inl rfl
      | ok row =>
          cases row with
          | none => exact .inl rfl
          | some row =>
              -- reading a row again keeps the last time read
              refine .inl ?_
              change ((w.sess i).readAgain row).clockRead = _
              simp only [Session.readAgain]
              split <;> rfl
  | write wr =>
      refine .inl ?_
      change ((w.sess i).afterWrite wr r).clockRead = _
      unfold Session.afterWrite
      split
      · cases wr <;> rfl
      · rfl
      · rfl

/-! ## Invariants -/

/-- No process has read a time that lies in the future. -/
theorem clockRead_le (h : WalletRun sha256 t₀ ok c) (i : ℕ) :
    ∀ t ∈ (c.sess i).clockRead, t ≤ c.shared.clock := by
  refine h.each (abides_any _) (J := fun s σ => ∀ t ∈ σ.clockRead, t ≤ s.clock) ?_ i
  refine { init := ?_, own := ?_, other := ?_, env := ?_ }
  · exact fun t ht => nomatch ht
  · intro c i o r hcall hJ t ht
    change t ≤ (effect o r _ _).clock
    rw [effect_clock]
    rcases after_clockRead hcall.enabled with hread | hread
    · exact hJ i t (hread ▸ ht)
    · exact (Option.some.inj (hread.symm.trans ht)).ge
  · intro c i o r j hcall hJ _ t ht
    change t ≤ (effect o r _ _).clock
    rw [effect_clock]
    exact hJ j t ht
  · rintro c _ σ - hJ ⟨clock, redis, rfl, hle, -⟩ t ht
    exact (hJ t ht).trans hle

/-- A lock that no other started process holds is held by no other process at all. -/
theorem not_mem_locks (h : WalletRun sha256 t₀ ok c) {i j : ℕ} {l : Lock}
    (hfree : ¬ LockedByOther c.toWorld i l) (hj : j ≠ i) : l ∉ (c.sess j).locks := by
  intro hl
  rcases lt_or_ge j c.size with hlt | hge
  · exact hfree ⟨j, hlt, hj, hl⟩
  · rw [(h.fresh (fresh_initial _)).sess_idle j hge] at hl
    cases hl

/-- No two transactions hold the same lock. -/
theorem locks_exclusive (h : WalletRun sha256 t₀ ok c) {i j : ℕ} (hij : i ≠ j) {l : Lock}
    (hl : l ∈ (c.sess i).locks) : l ∉ (c.sess j).locks := by
  refine h.pairwise (abides_any _) (K := fun σ σ' => ∀ l ∈ σ.locks, l ∉ σ'.locks) ?_ ?_ ?_ hij l hl
  · exact fun hK l hl hl' => hK l hl' hl
  · exact fun σ l hl => nomatch hl
  · intro c i j o r hcall hj hK l hl
    cases TxStep.of_ends hcall.enabled with
    | ended _ hlocks => exact absurd hl (by simp [wallet, hlocks])
    | locked ls hfree _ hlocks =>
        rcases List.mem_append.mp (hlocks ▸ hl) with hl | hl
        · exact not_mem_locks hcall.run (hfree l hl) hj
        · exact hK l hl
    | reread row hfree _ _ _ hlocks | setWithdrawal id set hfree _ hlocks =>
        rcases List.mem_cons.mp (hlocks ▸ hl) with rfl | hl
        · exact not_mem_locks hcall.run hfree hj
        · exact hK l hl
    | same _ hlocks | aborted _ hlocks | balance _ _ _ _ hlocks | inserted _ _ _ hlocks
    | setDeposit _ _ _ hlocks => exact hK l (hlocks ▸ hl)

/-- A transaction holds the locks of the withdrawals it updates. -/
theorem locked_of_set (h : WalletRun sha256 t₀ ok c) {i : ℕ} {id : UUID} {set : WithdrawalSet}
    (hset : .setWithdrawal id set ∈ (c.sess i).writes) :
    .withdrawal id ∈ (c.sess i).locks := by
  refine h.each (abides_any _)
    (J := fun _ σ => ∀ id set, .setWithdrawal id set ∈ σ.writes → .withdrawal id ∈ σ.locks) ?_ i id
    set hset
  refine { init := ?_, own := ?_, other := ?_, env := ?_ }
  · exact fun id set h => nomatch h
  · intro c i o r hcall hJ id set hset
    cases TxStep.of_ends hcall.enabled with
    | same hwrites hlocks | locked _ _ hwrites hlocks =>
        have hold := hJ i id set (hwrites ▸ hset)
        simp [wallet, hlocks, hold]
    -- the list of writes is empty after these
    | ended hwrites | aborted hwrites | reread _ _ _ _ hwrites | balance _ _ _ hwrites =>
        rw [show ((wallet sha256).after o r (c.sess i)).writes = [] from hwrites] at hset
        cases hset
    | inserted _ _ hwrites hlocks | setDeposit _ _ hwrites hlocks =>
        have hset : .setWithdrawal id set ∈ (after o r (c.sess i)).writes := hset
        rw [hwrites, List.mem_append, List.mem_singleton] at hset
        rcases hset with hset | hset
        · exact hlocks ▸ hJ i id set hset
        · cases hset
    -- a row is locked when it is set
    | setWithdrawal id' set' _ hwrites hlocks =>
        have hset : .setWithdrawal id set ∈ (after o r (c.sess i)).writes := hset
        rw [hwrites, List.mem_append, List.mem_singleton] at hset
        change _ ∈ (after o r (c.sess i)).locks
        rw [hlocks]
        rcases hset with hset | hset
        · exact List.mem_cons_of_mem _ (hJ i id set hset)
        · cases hset
          exact List.mem_cons_self ..
  · exact fun _ hJ _ => hJ _
  · exact fun _ hJ _ => hJ

/-- A withdrawal that a transaction has read again under lock is still what the table holds. -/
theorem reread_current (h : WalletRun sha256 t₀ ok c) {i : ℕ} {row : Withdrawal Ticks}
    (hrow : row ∈ (c.sess i).rows) :
    .withdrawal row.id ∈ (c.sess i).locks ∧ row ∈ c.shared.db.withdrawals := by
  refine h.each (abides_any _)
    (J := fun s σ => ∀ row ∈ σ.rows, .withdrawal row.id ∈ σ.locks ∧ row ∈ s.db.withdrawals) ?_ i row
    hrow
  refine { init := ?_, own := ?_, other := ?_, env := ?_ }
  · exact fun row hrow => nomatch hrow
  · intro c i o r hcall hJ row hrow
    have hrow : row ∈ (after o r (c.sess i)).rows := hrow
    change _ ∈ (after o r (c.sess i)).locks ∧ row ∈ (effect o r (c.sess i) c.shared).db.withdrawals
    rcases effect_db o r (c.sess i) c.shared with hdb | ⟨-, hcommit⟩
    · rw [hdb]
      cases TxStep.of_ends hcall.enabled with
      | ended _ _ hrows =>
          rw [hrows] at hrow
          cases hrow
      | reread row' _ _ hmem _ hlocks hrows =>
          rw [hlocks]
          rcases List.mem_cons.mp (hrows ▸ hrow) with rfl | hrow
          · exact ⟨List.mem_cons_self .., hmem⟩
          · exact ⟨List.mem_cons_of_mem _ (hJ i row hrow).1, (hJ i row hrow).2⟩
      | locked ls _ _ hlocks hrows =>
          have hold := hJ i row (hrows ▸ hrow)
          exact ⟨hlocks ▸ List.mem_append_right _ hold.1, hold.2⟩
      | setWithdrawal _ _ _ _ hlocks hrows =>
          have hold := hJ i row (hrows ▸ hrow)
          exact ⟨hlocks ▸ List.mem_cons_of_mem _ hold.1, hold.2⟩
      | same _ hlocks hrows | aborted _ hlocks hrows | balance _ _ _ _ hlocks hrows
      | inserted _ _ _ hlocks hrows | setDeposit _ _ _ hlocks hrows =>
          exact hlocks ▸ hJ i row (hrows ▸ hrow)
    · rw [hcommit] at hrow
      cases hrow
  · intro c i o r j hcall hJ hj row hrow
    refine ⟨(hJ j row hrow).1, ?_⟩
    change row ∈ (effect o r (c.sess i) c.shared).db.withdrawals
    rcases effect_db o r (c.sess i) c.shared with hdb | ⟨hdb, -⟩
    · rw [hdb]
      exact (hJ j row hrow).2
    · -- a transaction that updates the row would hold its lock too
      rw [hdb]
      refine Database.mem_withdrawals_applyAll _ (hJ j row hrow).2 fun set hset => ?_
      exact locks_exclusive hcall.run (Ne.symm hj) (locked_of_set hcall.run hset) (hJ j row hrow).1
  · rintro c _ σ - hJ ⟨clock, redis, rfl, -⟩
    exact hJ

/-! ## Unique keys -/

/-- Keys that no other started process has taken are taken by no other process at all. -/
theorem disjoint_keys (h : WalletRun sha256 t₀ ok c) {i j : ℕ} {ks : List UniqueKey}
    (hfree : ¬ TakenByOther c.toWorld i ks) (hj : j ≠ i) : List.Disjoint ks (c.sess j).keys := by
  intro k hk hk'
  rcases lt_or_ge j c.size with hlt | hge
  · exact hfree ⟨j, hlt, hj, k, hk, hk'⟩
  · rw [(h.fresh (fresh_initial _)).sess_idle j hge] at hk'
    cases hk'

/-- What an operation does to the keys that its transaction has taken. -/
theorem TxStep.keys_cases {w : State} {i : ℕ} {σ σ' : Session} (h : TxStep w i σ σ') :
    σ'.keys = [] ∨ σ'.keys = σ.keys ∨
      ∃ row, Insertable w i row ∧ σ'.keys = σ.keys ++ row.keys := by
  cases h with
  | same hwrites | locked _ _ hwrites =>
      exact .inr (.inl (by rw [Session.keys, hwrites, Session.keys]))
  | ended hwrites | aborted hwrites | reread _ _ _ _ hwrites | balance _ _ _ hwrites =>
      exact .inl (by rw [Session.keys, hwrites]; rfl)
  | inserted row hrow hwrites =>
      exact .inr (.inr ⟨row, hrow, by simp [Session.keys, hwrites, Write.keys]⟩)
  | setDeposit _ _ hwrites | setWithdrawal _ _ _ hwrites =>
      exact .inr (.inl (by simp [Session.keys, hwrites, Write.keys]))

/-- No two open transactions have taken the same key. -/
theorem keys_disjoint (h : WalletRun sha256 t₀ ok c) {i j : ℕ} (hij : i ≠ j) :
    List.Disjoint (c.sess i).keys (c.sess j).keys := by
  refine h.pairwise (abides_any _) (K := fun σ σ' => List.Disjoint σ.keys σ'.keys) ?_ ?_ ?_ hij
  · exact fun hK => hK.symm
  · exact fun σ => List.disjoint_nil_left _
  · intro c i j o r hcall hj hK
    change List.Disjoint (after o r (c.sess i)).keys _
    rcases (TxStep.of_ends hcall.enabled).keys_cases with hkeys | hkeys | ⟨row, hrow, hkeys⟩
    · rw [hkeys]
      exact List.disjoint_nil_left _
    · rw [hkeys]
      exact hK
    · rw [hkeys, List.disjoint_append_left]
      exact ⟨hK, disjoint_keys hcall.run hrow.free hj⟩

/-- The keys of one row are different from each other. -/
theorem Row.keys_nodup {α : Type} (row : Row α) : row.keys.Nodup := by
  cases row with
  | account a => cases h : a.userId <;> simp [Row.keys, h]
  | ledger e => cases h : e.idempotencyKey <;> simp [Row.keys, h]
  | _ => simp [Row.keys]

/-- The keys that are committed, and those that an open transaction has taken, are all different. -/
theorem keys_nodup (h : WalletRun sha256 t₀ ok c) (i : ℕ) :
    ((c.sess i).keys ++ c.shared.db.keys).Nodup := by
  refine h.each (abides_any _) (J := fun s σ => (σ.keys ++ s.db.keys).Nodup) ?_ i
  refine { init := ?_, own := ?_, other := ?_, env := ?_ }
  · change (Database.migrated t₀).keys.Nodup
    simp [Database.migrated, Database.keys, Row.keys]
  · intro c i o r hcall hJ
    change ((after o r (c.sess i)).keys ++ (effect o r (c.sess i) c.shared).db.keys).Nodup
    rcases effect_db o r (c.sess i) c.shared with hdb | ⟨hdb, hcommit⟩
    · rw [hdb]
      rcases (TxStep.of_ends hcall.enabled).keys_cases with hkeys | hkeys | ⟨row, hrow, hkeys⟩
      · rw [hkeys]
        exact (hJ i).sublist (List.sublist_append_right ..)
      · rw [hkeys]
        exact hJ i
      · -- the new keys are neither committed nor among the keys taken before
        have hnew : List.Disjoint row.keys ((c.sess i).keys ++ c.shared.db.keys) := by
          intro k hk hk'
          exact hrow.unique k hk ((Database.keys_applyAll _ _).mem_iff.mpr hk')
        have hperm : (((c.sess i).keys ++ row.keys) ++ c.shared.db.keys).Perm
            (row.keys ++ ((c.sess i).keys ++ c.shared.db.keys)) := by
          rw [List.append_assoc]
          exact List.perm_append_comm_assoc ..
        rw [hkeys, hperm.nodup_iff]
        exact row.keys_nodup.append (hJ i) hnew
    · rw [hdb, hcommit]
      exact (Database.keys_applyAll _ _).nodup_iff.mpr (hJ i)
  · intro c i o r j hcall hJ hj
    change ((c.sess j).keys ++ (effect o r (c.sess i) c.shared).db.keys).Nodup
    rcases effect_db o r (c.sess i) c.shared with hdb | ⟨hdb, -⟩
    · rw [hdb]
      exact hJ j
    · rw [hdb, ((Database.keys_applyAll _ _).append_left _).nodup_iff]
      refine (List.nodup_append.mp (hJ j)).1.append (hJ i) ?_
      rw [List.disjoint_append_right]
      exact ⟨keys_disjoint hcall.run hj, List.disjoint_of_nodup_append (hJ j)⟩
  · rintro c _ σ - hJ ⟨clock, redis, rfl, -⟩
    exact hJ

/-! ## Checks and foreign keys -/

/-- What holds of every write that Postgres accepts holds of the writes of an open transaction. -/
theorem written_of_mem {P : Write → Prop}
    (hP : ∀ w i wr, verdict w i wr = some (.ok ()) → P wr) (h : WalletRun sha256 t₀ ok c) {i : ℕ}
    {wr : Write} (hwr : wr ∈ (c.sess i).writes) : P wr := by
  refine h.each (abides_any _) (J := fun _ σ => ∀ wr ∈ σ.writes, P wr) ?_ i wr hwr
  refine { init := ?_, own := ?_, other := fun _ hJ _ => hJ _, env := fun _ hJ _ => hJ }
  · exact fun wr h => nomatch h
  · intro c i o r hcall hJ
    dsimp only [wallet]
    rcases writes_cases hcall.enabled with hwrites | hwrites | ⟨wr, -, hverdict, hwrites⟩
    · rw [hwrites]
      exact fun wr hwr => nomatch hwr
    · rw [hwrites]
      exact hJ i
    · rw [hwrites, List.forall_mem_append]
      exact ⟨hJ i, List.forall_mem_singleton.mpr (hP _ _ _ hverdict)⟩

/-- What holds of every object that can be inserted holds of the objects that an open transaction
has inserted. -/
theorem inserted_of_mem {P : Row Decimal → Prop} (hP : ∀ w i row, Insertable w i row → P row)
    (h : WalletRun sha256 t₀ ok c) {i : ℕ} {row : Row Decimal}
    (hrow : .insert row ∈ (c.sess i).writes) : P row := by
  refine written_of_mem (P := fun wr => ∀ row, wr = .insert row → P row) ?_ h hrow row rfl
  rintro w i wr hverdict row rfl
  exact hP w i row (insertable_of_verdict hverdict)

/-- An object that an open transaction has inserted satisfies the `CHECK` constraints. -/
theorem checks_of_inserted (h : WalletRun sha256 t₀ ok c) {i : ℕ} {row : Row Decimal}
    (hrow : .insert row ∈ (c.sess i).writes) : row.stored.failedCheck? = none :=
  inserted_of_mem (fun _ _ _ hrow => hrow.checks) h hrow

/-- What holds of the system account and of every object that can be inserted holds of every row, if
updates keep it. -/
theorem rows_invariant {P : Row Ticks → Prop}
    (hdeposit : ∀ id set r, P r → P (Row.setDeposit id set r))
    (hwithdrawal : ∀ id set r, P r → P (Row.setWithdrawal id set r))
    (haccount : ∀ a, P (.account a))
    (hinsert : ∀ row : Row Decimal, row.fits = true → row.stored.failedCheck? = none → P row.stored)
    (h : WalletRun sha256 t₀ ok c) : ∀ r ∈ c.shared.db.rows, P r := by
  refine h.invariant (abides_any _) (I := fun w => ∀ r ∈ w.shared.db.rows, P r) ?_
  refine { init := ?_, spawn := fun _ hI => hI, call := ?_, stop := fun _ hI _ => hI, env := ?_ }
  · -- at the start there is the system account alone
    intro r hr
    obtain rfl := List.mem_singleton.mp hr
    exact haccount _
  · -- only a commit changes the rows, and it inserts objects that have passed their checks
    intro c i o r hcall hI
    dsimp only [afterCall, wallet]
    rcases effect_db o r (c.sess i) c.shared with hdb | ⟨hdb, -⟩
    · rwa [hdb]
    · rw [hdb]
      exact c.shared.db.forall_rows_applyAll hdeposit hwithdrawal hI fun row hrow =>
        inserted_of_mem (P := fun row => P row.stored)
          (fun _ _ row hrow => hinsert row hrow.fits hrow.checks) hcall.run hrow
  · rintro c _ - hI ⟨clock, redis, rfl, -⟩
    exact hI

/-- The accounts that a row refers to exist, whether the row is committed or not. -/
theorem refers (h : WalletRun sha256 t₀ ok c) (i : ℕ) :
    (∀ row, .insert row ∈ (c.sess i).writes → (view c.toWorld i).Refers row) ∧
      ∀ row ∈ c.shared.db.rows, c.shared.db.Refers row := by
  refine h.each (abides_any _) (J := fun s σ =>
    (∀ row, .insert row ∈ σ.writes → (s.db.applyAll σ.writes).Refers row) ∧
      ∀ row ∈ s.db.rows, s.db.Refers row) ?_ i
  refine { init := ?_, own := ?_, other := ?_, env := ?_ }
  · -- at the start there is the system account, which refers to nothing
    refine ⟨fun row hrow => (nomatch hrow), fun row hrow => ?_⟩
    obtain rfl := List.mem_singleton.mp hrow
    exact fun fk hfk => nomatch hfk
  · intro c i o r hcall hJ
    dsimp only [wallet]
    rcases effect_db o r (c.sess i) c.shared with hdb | ⟨hdb, hcommit⟩
    · rw [hdb]
      -- the step commits nothing
      refine ⟨fun row hrow => ?_, (hJ i).2⟩
      cases TxStep.of_ends hcall.enabled with
      | same hwrites | locked _ _ hwrites =>
          rw [hwrites] at hrow ⊢
          exact (hJ i).1 row hrow
      | ended hwrites | aborted hwrites | reread _ _ _ _ hwrites | balance _ _ _ hwrites =>
          rw [hwrites] at hrow
          cases hrow
      | inserted row' hrow' hwrites =>
          -- the view grows with the row that is inserted
          have hmono : ∀ a ∈ (view c.toWorld i).accounts,
              a ∈ (c.shared.db.applyAll ((c.sess i).writes ++ [.insert row'])).accounts := by
            intro a ha
            rw [Database.applyAll_append]
            exact Database.mem_accounts_applyAll _ |>.mpr (.inr ha)
          rw [hwrites] at hrow ⊢
          rw [List.mem_append, List.mem_singleton] at hrow
          rcases hrow with hrow | hrow
          · exact ((hJ i).1 row hrow).mono hmono
          · -- the accounts of the new row were checked when it was inserted
            cases hrow
            have haccounts : (view c.toWorld i).Refers row := hrow'.accounts
            exact haccounts.mono hmono
      | setDeposit _ _ hwrites | setWithdrawal _ _ _ hwrites =>
          rw [hwrites] at hrow ⊢
          rw [List.mem_append, List.mem_singleton] at hrow
          rcases hrow with hrow | hrow
          · -- a row that was inserted earlier refers to accounts that are still there
            refine ((hJ i).1 row hrow).mono fun a ha => ?_
            rw [Database.applyAll_append]
            exact Database.mem_accounts_applyAll _ |>.mpr (.inr ha)
          · cases hrow
    · rw [hdb, hcommit]
      -- with the commit the view of the process becomes the tables
      exact ⟨fun row hrow => (nomatch hrow), Database.refers_applyAll _ (hJ i).2 (hJ i).1⟩
  · intro c i o r j hcall hJ hj
    dsimp only [wallet]
    rcases effect_db o r (c.sess i) c.shared with hdb | ⟨hdb, -⟩
    · rw [hdb]
      exact hJ j
    · -- another process commits, and no account disappears
      rw [hdb]
      refine ⟨fun row hrow => ?_, Database.refers_applyAll _ (hJ i).2 (hJ i).1⟩
      refine ((hJ j).1 row hrow).mono fun a ha => ?_
      rw [Database.mem_accounts_applyAll] at ha ⊢
      exact ha.imp_right fun ha => (Database.mem_accounts_applyAll _).mpr (.inr ha)
  · rintro c _ σ - hJ ⟨clock, redis, rfl, -⟩
    exact hJ

end MiniWallet

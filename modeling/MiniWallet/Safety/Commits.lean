import MiniWallet.Ledger.Books
import MiniWallet.Ledger.Programs
import MiniWallet.Safety.Isolation

/-!
# Every commit is a transaction of the wallet

The discipline that each program keeps on its own holds in every run, whatever the other processes
do. So the tables change only by the transactions of `Transaction`, each of them justified.

* `abides`: the wallet abides by the discipline.
* `WalletStep`: what an operation can do to the shared state and to what its process has on record.
* `database_invariant`, `database_monotone`: what every justified transaction keeps, or respects,
  holds of the tables in every run.
* `fresh_of_drawn`: an identifier drawn for a transaction is not yet in use.
-/

namespace MiniWallet

open Numeric Process System State

variable {sha256 : String → String} {t₀ : Time} {ok : State → Event → Prop} {c : Wallet}

/-- In every run the operations end as the discipline expects. -/
theorem expected_of_ends (h : WalletRun sha256 t₀ anyStep c) {i : ℕ} {o : Op}
    {r : Except Exc o.Out} (hr : Ends c.toWorld i o r) :
    (discipline sha256).possible o r (c.sess i) := by
  cases o with
  | now =>
      obtain rfl := ends_now hr
      exact clockRead_le h i
  | uuid4 =>
      obtain ⟨id, -, rfl⟩ := ends_uuid4 hr
      trivial
  | breaker command =>
      -- the exception that Redis raises is the one that the program expects
      rcases ends_breaker hr with rfl | rfl
      · trivial
      · rfl
  | select q =>
      rcases ends_select hr with rfl | rfl
      · -- a transfer that is found has the key that was asked for
        cases q with
        | transferByKey key =>
            intro t ht
            simpa using List.find?_some ht
        | _ => trivial
      · trivial
  | lockWithdrawal id =>
      rcases ends_lockWithdrawal hr with ⟨rfl, -⟩ | rfl
      · intro row hrow
        simpa using List.find?_some hrow
      · trivial
  -- a sweep claims each withdrawal once
  | claimStuck cutoff limit =>
      rcases ends_claimStuck hr with ⟨ids, rfl, hnodup, -⟩ | rfl
      · exact hnodup
      · trivial
  | cacheGet key | cacheSet key entry | lockAccount id | write w | commit | rollback
  | sendWithdrawal id amount destination | queryStatus ref => cases r <;> trivial

/-- The wallet abides by the discipline. -/
theorem abides (sha256 : String → String) (t₀ : Time) :
    (wallet sha256).Abides (discipline sha256) (.initial t₀) where
  possible := fun hrun hr => expected_of_ends hrun hr
  safe := by
    rintro p ⟨request, rfl⟩
    exact Contract.Safe.of_wp _ _ (keeps_program request)

/-- In a run under `ok`, process `i` is about to commit transaction `T` in configuration `c`. -/
structure Commits (sha256 : String → String) (t₀ : Time) (ok : State → Event → Prop) (c : Wallet)
    (i : ℕ) (T : Transaction) : Prop where
  run : WalletRun sha256 t₀ ok c
  allowed : ok c.toWorld (.call i .commit (.ok ()))
  writes : (c.sess i).writes = T.writes
  justified : Justified (c.sess i) T
  narrated : Narrated (c.sess i) T

/-- A shorthand for an operation that is called under its guard in a run of the wallet. -/
abbrev WalletCall (sha256 : String → String) (t₀ : Time) (ok : State → Event → Prop) (c : Wallet)
    (i : ℕ) (o : Op) (r : Except Exc o.Out) : Prop :=
  (wallet sha256).Call (discipline sha256) ok (.initial t₀) c i o r

/-! ## What an operation leaves on record -/

/-- What a session keeps when its transaction ends. -/
structure Log where
  drawn : List UUID
  accepted : List UUID
  owned : Option (Withdrawal Decimal)
  committed : List (Row Decimal)
  seen : List (Transfer Ticks)

/-- What the session keeps when its transaction ends. -/
def Session.log (σ : Session) : Log := ⟨σ.drawn, σ.accepted, σ.owned, σ.committed, σ.seen⟩

/-- What an operation of process `i` can do to the shared state and to the record of its process.
`σ'` and `s'` are the session and the shared state after the operation. -/
inductive WalletStep (sha256 : String → String) (t₀ : Time) (ok : State → Event → Prop) (c : Wallet)
    (i : ℕ) (σ' : Session) (s' : Shared) : Prop
  /-- Nothing that is on record changes, apart from the keys of the circuit breaker. -/
  | quiet (b : Breaker) : σ'.log = (c.sess i).log → s' = { c.shared with breaker := b } →
      WalletStep sha256 t₀ ok c i σ' s'
  /-- A fresh identifier is drawn. -/
  | drew (id : UUID) : id ∉ c.shared.issued →
      σ' = { c.sess i with drawn := id :: (c.sess i).drawn } →
      s' = { c.shared with issued := id :: c.shared.issued } → WalletStep sha256 t₀ ok c i σ' s'
  /-- A committed transfer is looked up. -/
  | saw (key : String) :
      σ' = { c.sess i with
        seen := (c.shared.db.transferByKey key).toList ++ (c.sess i).seen } →
      s' = c.shared → WalletStep sha256 t₀ ok c i σ' s'
  /-- A withdrawal is read again under lock. -/
  | reread (row : Withdrawal Ticks) : ¬ LockedByOther c.toWorld i (.withdrawal row.id) →
      row ∈ (view c.toWorld i).withdrawals → σ' = (c.sess i).readAgain row →
      s' = { c.shared with reread := row.id :: c.shared.reread } →
      WalletStep sha256 t₀ ok c i σ' s'
  /-- An entry is put into Redis. -/
  | cached (key : String) (entry : CacheEntry) : Cacheable sha256 (c.sess i) key entry →
      σ' = c.sess i →
      s' = { c.shared with redis := Function.update c.shared.redis key (some entry) } →
      WalletStep sha256 t₀ ok c i σ' s'
  /-- The rail accepts a withdrawal. -/
  | paid (id : UUID) (amount : Decimal) (reference : String) : Sendable (c.sess i) id →
      σ' = { c.sess i with accepted := id :: (c.sess i).accepted } →
      s' = { c.shared with payouts := ⟨id, amount, reference⟩ :: c.shared.payouts } →
      WalletStep sha256 t₀ ok c i σ' s'
  /-- A transaction is committed. -/
  | committed (T : Transaction) : Commits sha256 t₀ ok c i T → σ' = (c.sess i).commit →
      s' = c.shared.commit (c.sess i) → WalletStep sha256 t₀ ok c i σ' s'

/-- Reading a withdrawal again leaves nothing on record. -/
theorem Session.log_readAgain (σ : Session) (row : Withdrawal Ticks) :
    (σ.readAgain row).log = σ.log := by
  unfold Session.readAgain
  split <;> rfl

/-- A write leaves nothing on record before the commit. -/
theorem Session.log_afterWrite (σ : Session) (wr : Write) (r : Except Exc Unit) :
    (σ.afterWrite wr r).log = σ.log := by
  unfold Session.afterWrite
  split
  · cases wr <;> rfl
  · rfl
  · rfl

namespace WalletStep

variable {i : ℕ}

/-- A `SELECT` as a step of the wallet. -/
theorem of_select {q : Query} {r : Except Exc q.Result} (h : Ends c.toWorld i (.select q) r) :
    WalletStep sha256 t₀ ok c i (after (.select q) r (c.sess i)) c.shared := by
  rcases ends_select h with rfl | rfl
  · cases q with
    | balance a =>
        refine .quiet _ ?_ rfl
        change ((c.sess i).learn (.balance a) _).log = _
        simp only [Session.learn]
        split <;> rfl
    | transferByKey key =>
        -- before its first write a process sees the committed tables
        by_cases hwrites : (c.sess i).writes.isEmpty
        · refine .saw key ?_ rfl
          have hview : view c.toWorld i = c.shared.db := by
            rw [view, List.isEmpty_iff.mp hwrites]
            rfl
          change (c.sess i).learn (.transferByKey key) _ = _
          simp only [Session.learn, hwrites, if_true, Query.eval, hview]
        · refine .quiet _ ?_ rfl
          change ((c.sess i).learn (.transferByKey key) _).log = _
          simp only [Session.learn, hwrites]
          rfl
    | _ => exact .quiet _ rfl rfl
  · exact .quiet _ rfl rfl

/-- A `SELECT … FOR UPDATE` of a withdrawal as a step of the wallet. -/
theorem of_lockWithdrawal {id : UUID} {r : Except Exc (Option (Withdrawal Ticks))}
    (h : Ends c.toWorld i (.lockWithdrawal id) r) :
    WalletStep sha256 t₀ ok c i (after (.lockWithdrawal id) r (c.sess i))
      (effect (.lockWithdrawal id) r (c.sess i) c.shared) := by
  rcases ends_lockWithdrawal h with ⟨rfl, hfree⟩ | rfl
  · cases hrow : (view c.toWorld i).withdrawalById id with
    | none => exact .quiet _ rfl rfl
    | some row =>
        obtain rfl : row.id = id := by simpa using List.find?_some hrow
        exact .reread row hfree (List.mem_of_find?_eq_some hrow) rfl rfl
  · exact .quiet _ rfl rfl

/-- Every operation does one of these things. -/
theorem of_call {o : Op} {r : Except Exc o.Out} (h : WalletCall sha256 t₀ ok c i o r) :
    WalletStep sha256 t₀ ok c i (after o r (c.sess i)) (effect o r (c.sess i) c.shared) := by
  cases o with
  | uuid4 =>
      obtain ⟨id, hid, rfl⟩ := ends_uuid4 h.enabled
      exact .drew id hid rfl rfl
  | select q => exact of_select h.enabled
  | lockWithdrawal id => exact of_lockWithdrawal h.enabled
  | cacheSet key entry =>
      cases r with
      | error e => exact .quiet _ rfl rfl
      | ok u => exact .cached key entry h.guard rfl rfl
  | sendWithdrawal id amount destination =>
      cases r with
      | error e => exact .quiet _ rfl rfl
      | ok reference => exact .paid id amount reference h.guard rfl rfl
  | commit =>
      cases r with
      | error e => exact .quiet _ rfl rfl
      | ok u =>
          -- the discipline says which transaction the writes make up
          obtain ⟨T, hwrites, hjustified, hnarrated⟩ := h.guard
          exact .committed T ⟨h.run, h.allowed, hwrites, hjustified, hnarrated⟩ rfl rfl
  | write wr => exact .quiet _ (Session.log_afterWrite _ wr r) rfl
  | lockAccount id =>
      cases r with
      | error e => exact .quiet _ rfl rfl
      | ok a => cases a <;> exact .quiet _ rfl rfl
  | now | cacheGet key | claimStuck cutoff limit | breaker command =>
      cases r <;> exact .quiet _ rfl rfl
  -- what is left changes neither the tables nor the log of the session
  | rollback | queryStatus ref => exact .quiet _ rfl rfl

variable {σ' : Session} {s' : Shared} (h : WalletStep sha256 t₀ ok c i σ' s')

include h

/-- Only a commit changes the tables and the objects that the creators of withdrawals hold. -/
theorem commit_cases :
    (s'.db = c.shared.db ∧ s'.overtaken = c.shared.overtaken ∧ s'.history = c.shared.history ∧
        σ'.owned = (c.sess i).owned ∧ σ'.committed = (c.sess i).committed) ∨
      ∃ T, Commits sha256 t₀ ok c i T ∧ σ' = (c.sess i).commit ∧
        s' = c.shared.commit (c.sess i) := by
  cases h with
  | quiet _ hlog hs =>
      exact .inl ⟨by rw [hs], by rw [hs], by rw [hs], congrArg Log.owned hlog,
        congrArg Log.committed hlog⟩
  | reread row _ _ hσ hs =>
      have hlog := Session.log_readAgain (c.sess i) row
      rw [hσ, hs]
      exact .inl ⟨rfl, rfl, rfl, congrArg Log.owned hlog, congrArg Log.committed hlog⟩
  | drew _ _ hσ hs | saw _ hσ hs | cached _ _ _ hσ hs | paid _ _ _ _ hσ hs =>
      rw [hσ, hs]
      exact .inl ⟨rfl, rfl, rfl, rfl, rfl⟩
  | committed T hT hσ hs => exact .inr ⟨T, hT, hσ, hs⟩

/-- What an operation does to the identifiers that are drawn and handed out. -/
theorem drawn_cases :
    ((σ'.drawn = (c.sess i).drawn ∨ σ'.drawn = []) ∧ s'.issued = c.shared.issued) ∨
      ∃ id, id ∉ c.shared.issued ∧ σ'.drawn = id :: (c.sess i).drawn ∧
        s'.issued = id :: c.shared.issued := by
  cases h with
  | quiet _ hlog hs => exact .inl ⟨.inl (congrArg Log.drawn hlog), by rw [hs]⟩
  | reread row _ _ hσ hs =>
      rw [hσ, hs]
      exact .inl ⟨.inl (congrArg Log.drawn (Session.log_readAgain (c.sess i) row)), rfl⟩
  | drew id hid hσ hs =>
      rw [hσ, hs]
      exact .inr ⟨id, hid, rfl, rfl⟩
  | saw _ hσ hs | cached _ _ _ hσ hs | paid _ _ _ _ hσ hs =>
      rw [hσ, hs]
      exact .inl ⟨.inl rfl, rfl⟩
  | committed T _ hσ hs =>
      rw [hσ, hs]
      exact .inl ⟨.inr rfl, rfl⟩

/-- Only the rail's acceptance adds to what was paid out. -/
theorem paid_cases :
    (σ'.accepted = (c.sess i).accepted ∧ s'.payouts = c.shared.payouts) ∨
      ∃ id amount reference, Sendable (c.sess i) id ∧
        σ' = { c.sess i with accepted := id :: (c.sess i).accepted } ∧
        s' = { c.shared with payouts := ⟨id, amount, reference⟩ :: c.shared.payouts } := by
  cases h with
  | quiet _ hlog hs => exact .inl ⟨congrArg Log.accepted hlog, by rw [hs]⟩
  | reread row _ _ hσ hs =>
      rw [hσ, hs]
      exact .inl ⟨congrArg Log.accepted (Session.log_readAgain (c.sess i) row), rfl⟩
  | paid id amount reference hsend hσ hs => exact .inr ⟨id, amount, reference, hsend, hσ, hs⟩
  | drew _ _ hσ hs | saw _ hσ hs | cached _ _ _ hσ hs =>
      rw [hσ, hs]
      exact .inl ⟨rfl, rfl⟩
  | committed T _ hσ hs =>
      rw [hσ, hs]
      exact .inl ⟨rfl, rfl⟩

end WalletStep

/-- Induction over runs for the tables: what the migrated tables satisfy and every transaction of
the wallet keeps holds in every run. -/
theorem database_invariant {P : Database → Prop} (hinit : P (.migrated t₀))
    (hcommit : ∀ {c : Wallet} {i : ℕ} {T : Transaction}, Commits sha256 t₀ ok c i T →
      P c.shared.db → P (c.shared.db.applyAll T.writes))
    (h : WalletRun sha256 t₀ ok c) : P c.shared.db := by
  refine h.invariant (abides sha256 t₀) (I := fun w => P w.shared.db) ?_
  refine { init := hinit, spawn := fun _ hP => hP, call := ?_, stop := fun _ hP _ => hP, env := ?_ }
  · intro c i o r hcall hP
    dsimp only [afterCall, wallet]
    rcases (WalletStep.of_call hcall).commit_cases with ⟨hdb, -⟩ | ⟨T, hT, -, hs⟩
    · rwa [hdb]
    · rw [hs, Shared.commit, hT.writes]
      exact hcommit hT hP
  · rintro c _ - hP ⟨clock, redis, rfl, -⟩
    exact hP

/-- A preorder on the tables that every transaction of the wallet respects relates the tables at two
points of a run. -/
theorem database_monotone {R : Database → Database → Prop} (hrefl : ∀ db, R db db)
    (htrans : ∀ {a b c}, R a b → R b c → R a c)
    (hcommit : ∀ {c : Wallet} {i : ℕ} {T : Transaction}, Commits sha256 t₀ ok c i T →
      R c.shared.db (c.shared.db.applyAll T.writes))
    (h : WalletRun sha256 t₀ ok c) {c' : Wallet} (h' : (wallet sha256).Run ok c c') :
    R c.shared.db c'.shared.db := by
  refine h.monotone (abides sha256 t₀) (R := fun s s' => R s.db s'.db)
    (fun _ => hrefl _) htrans ?_ ?_
    h'
  · intro c i o r hcall
    dsimp only [wallet]
    rcases (WalletStep.of_call hcall).commit_cases with ⟨hdb, -⟩ | ⟨T, hT, -, hs⟩
    · rw [hdb]
      exact hrefl _
    · rw [hs, Shared.commit, hT.writes]
      exact hcommit hT
  · rintro s _ ⟨clock, redis, rfl, -⟩
    exact hrefl _

/-! ## Identifiers -/

/-- What was handed out stays so. -/
theorem issued_mono {i : ℕ} {o : Op} {r : Except Exc o.Out} (h : WalletCall sha256 t₀ ok c i o r)
    {id : UUID} (hid : id ∈ c.shared.issued) : id ∈ (effect o r (c.sess i) c.shared).issued := by
  rcases (WalletStep.of_call h).drawn_cases with ⟨-, hs⟩ | ⟨id', -, -, hs⟩
  · rwa [hs]
  · rw [hs]
    exact List.mem_cons_of_mem _ hid

/-- Every identifier that a process has drawn was handed out. -/
theorem issued_of_drawn (h : WalletRun sha256 t₀ ok c) (i : ℕ) :
    ∀ id ∈ (c.sess i).drawn, id ∈ c.shared.issued := by
  refine h.each (abides sha256 t₀) (J := fun s σ => ∀ id ∈ σ.drawn, id ∈ s.issued) ?_ i
  refine { init := ?_, own := ?_, other := ?_, env := ?_ }
  · exact fun id hid => nomatch hid
  · intro c i o r hcall hJ
    dsimp only [wallet]
    rcases (WalletStep.of_call hcall).drawn_cases with ⟨hσ | hσ, hs⟩ | ⟨id, -, hσ, hs⟩
    · rw [hσ, hs]
      exact hJ i
    · rw [hσ]
      exact fun id hid => nomatch hid
    · rw [hσ, hs]
      exact fun id' hid' => List.mem_cons.mpr ((List.mem_cons.mp hid').imp_right (hJ i id'))
  · intro c i o r j hcall hJ hj id hid
    exact issued_mono hcall (hJ j id hid)
  · rintro c _ σ - hJ ⟨clock, redis, rfl, -⟩
    exact hJ

/-- No two processes have drawn the same identifier. -/
theorem drawn_disjoint (h : WalletRun sha256 t₀ ok c) {i j : ℕ} (hij : i ≠ j) :
    List.Disjoint (c.sess i).drawn (c.sess j).drawn := by
  refine h.pairwise (abides sha256 t₀)
    (K := fun σ σ' => List.Disjoint σ.drawn σ'.drawn) ?_ ?_ ?_ hij
  · exact fun hK => hK.symm
  · exact fun σ => List.disjoint_nil_left _
  · intro c i j o r hcall hj hK
    dsimp only [wallet]
    rcases (WalletStep.of_call hcall).drawn_cases with ⟨hσ | hσ, -⟩ | ⟨id, hid, hσ, -⟩
    · rwa [hσ]
    · rw [hσ]
      exact List.disjoint_nil_left _
    · rw [hσ, List.disjoint_cons_left]
      exact ⟨fun hmem => hid (issued_of_drawn hcall.run j id hmem), hK⟩

/-- A way in which the tables use identifiers: at first they use none, and a transaction brings only
identifiers that were drawn for it. -/
structure Tracked (sha256 : String → String) (t₀ : Time) (ok : State → Event → Prop)
    (Uses : Database → UUID → Prop) : Prop where
  init : ∀ id, ¬ Uses (.migrated t₀) id
  commit : ∀ {c : Wallet} {i : ℕ} {T : Transaction}, Commits sha256 t₀ ok c i T →
    ∀ id, Uses (c.shared.db.applyAll T.writes) id → id ∈ (c.sess i).drawn ∨ Uses c.shared.db id

namespace Tracked

variable {Uses : Database → UUID → Prop}

/-- Every identifier in use was handed out. -/
theorem issued (hU : Tracked sha256 t₀ ok Uses) (h : WalletRun sha256 t₀ ok c) :
    ∀ id, Uses c.shared.db id → id ∈ c.shared.issued := by
  refine h.invariant (abides sha256 t₀)
    (I := fun w => ∀ id, Uses w.shared.db id → id ∈ w.shared.issued) ?_
  refine { init := ?_, spawn := fun _ hI => hI, call := ?_, stop := fun _ hI _ => hI, env := ?_ }
  · exact fun id hid => absurd hid (hU.init id)
  · intro c i o r hcall hI id hid
    dsimp only [afterCall, wallet] at hid ⊢
    refine issued_mono hcall ?_
    rcases (WalletStep.of_call hcall).commit_cases with ⟨hdb, -⟩ | ⟨T, hT, -, hs⟩
    · exact hI id (hdb ▸ hid)
    · rw [hs, Shared.commit, hT.writes] at hid
      rcases hU.commit hT id hid with hid | hid
      · exact issued_of_drawn hcall.run i id hid
      · exact hI id hid
  · rintro c _ - hI ⟨clock, redis, rfl, -⟩
    exact hI

/-- An identifier that a process has drawn for its next transaction is not yet in use. -/
theorem fresh (hU : Tracked sha256 t₀ ok Uses) (h : WalletRun sha256 t₀ ok c) {i : ℕ} {id : UUID}
    (hid : id ∈ (c.sess i).drawn) : ¬ Uses c.shared.db id := by
  refine h.each (abides sha256 t₀) (J := fun s σ => ∀ id ∈ σ.drawn, ¬ Uses s.db id) ?_ i id hid
  refine { init := ?_, own := ?_, other := ?_, env := ?_ }
  · exact fun id hid => nomatch hid
  · intro c i o r hcall hJ
    dsimp only [wallet]
    rcases (WalletStep.of_call hcall).commit_cases with ⟨hdb, -⟩ | ⟨T, hT, hσ, -⟩
    · rw [hdb]
      rcases (WalletStep.of_call hcall).drawn_cases with ⟨hσ | hσ, -⟩ | ⟨id', hid', hσ, -⟩
      · rw [hσ]
        exact hJ i
      · rw [hσ]
        exact fun id hid => nomatch hid
      · rw [hσ]
        intro id hid
        rcases List.mem_cons.mp hid with rfl | hid
        · exact fun huses => hid' (hU.issued hcall.run id huses)
        · exact hJ i id hid
    · rw [hσ]
      exact fun id hid => nomatch hid
  · intro c i o r j hcall hJ hj id hid huses
    dsimp only [wallet] at huses
    rcases (WalletStep.of_call hcall).commit_cases with ⟨hdb, -⟩ | ⟨T, hT, -, hs⟩
    · exact hJ j id hid (hdb ▸ huses)
    · rw [hs, Shared.commit, hT.writes] at huses
      rcases hU.commit hT id huses with hid' | huses
      · -- the other transaction was given identifiers of its own
        exact drawn_disjoint hcall.run hj hid hid'
      · exact hJ j id hid huses
  · rintro c _ σ - hJ ⟨clock, redis, rfl, -⟩
    exact hJ

end Tracked

/-- The names in the tables are tracked. -/
theorem tracked_names : Tracked sha256 t₀ ok fun db id => id ∈ db.names where
  init := fun _ hid => nomatch hid
  commit := fun hT id hid => (Database.mem_names_post hid).imp_left (hT.justified.drawn id)

/-- An identifier that a process has drawn for its next transaction is not yet used as a name. -/
theorem fresh_of_drawn (h : WalletRun sha256 t₀ ok c) {i : ℕ} {id : UUID}
    (hid : id ∈ (c.sess i).drawn) : id ∉ c.shared.db.names :=
  tracked_names.fresh h hid

end MiniWallet

import MiniWallet.Safety.Uniqueness

/-!
# What Redis can hold

An entry of Redis under an idempotency key is never made up: it was put there for a transfer or for
a withdrawal that is in the tables. Entries may be lost at any time, so nothing is said about which
of them are there.

* `Recorded`: the tables hold the objects that were inserted and committed, with their amounts
  rounded, and the columns of a withdrawal that its saga does not change stay as they were inserted.
* `CachedFrom`: where an entry of Redis comes from.
* `recorded`, `cachedFrom`: both hold in every run.
-/

namespace MiniWallet

open Numeric Process System State

variable {sha256 : String → String} {t₀ : Time} {ok : State → Event → Prop} {c : Wallet}

/-! ## The columns that never change -/

section AsCreated

variable {α : Type}

/-- The withdrawal with the columns that its saga changes as they are in a new one. Two rows that
agree in this describe the same request. -/
def Withdrawal.asCreated (w : Withdrawal α) : Withdrawal α :=
  { w with
    status := .pending
    failureCode := none
    externalReference := none
    submittedAt := none
    completedAt := none
    updatedAt := w.createdAt }

/-- The columns that never change, one by one. -/
theorem Withdrawal.columns_of_asCreated {w w' : Withdrawal α} (h : w.asCreated = w'.asCreated) :
    w.accountId = w'.accountId ∧ w.amount = w'.amount ∧ w.currency = w'.currency ∧
      w.destinationType = w'.destinationType ∧ w.destinationDetails = w'.destinationDetails ∧
      w.idempotencyKey = w'.idempotencyKey := by
  simp only [asCreated, mk.injEq] at h
  tauto

/-- Updates keep the columns that never change. -/
theorem foldl_apply_asCreated (sets : List WithdrawalSet) (w : Withdrawal α) :
    (sets.foldl (fun w s => s.apply w) w).asCreated = w.asCreated := by
  induction sets generalizing w with
  | nil => rfl
  | cons s sets ih => exact ih (s.apply w)

/-- A transaction keeps the columns that never change. -/
theorem Transaction.update_asCreated (T : Transaction) (w : Withdrawal α) :
    (T.update w).asCreated = w.asCreated := by
  unfold Transaction.update
  cases T.updates with
  | none => rfl
  | some u =>
      simp only [Option.elim_some, Withdrawal.updated]
      split
      · exact foldl_apply_asCreated u.2 w
      · rfl

end AsCreated

/-! ## The objects that were inserted -/

/-- The transfers that a session inserts are those of its transaction. -/
theorem Transaction.transfer_mem_inserted {T : Transaction} {σ : Session} (h : σ.writes = T.writes)
    {t : Transfer Decimal} : .transfer t ∈ σ.inserted ↔ t ∈ T.transfers := by
  rw [Session.inserted, h]
  cases T <;> simp [writes, transfers]

/-- The withdrawals that a session inserts are those of its transaction. -/
theorem Transaction.withdrawal_mem_inserted {T : Transaction} {σ : Session}
    (h : σ.writes = T.writes) {w : Withdrawal Decimal} :
    .withdrawal w ∈ σ.inserted ↔ w ∈ T.withdrawals := by
  rw [Session.inserted, h]
  cases T <;> simp [writes, withdrawals]

/-- What a session has inserted is among its statements. -/
theorem Session.insert_mem_of_inserted {σ : Session} {row : Row Decimal} (h : row ∈ σ.inserted) :
    .insert row ∈ σ.writes := by
  obtain ⟨wr, hwr, hrow⟩ := List.mem_filterMap.mp h
  cases wr with
  | insert row' =>
      cases hrow
      exact hwr
  | _ => cases hrow

/-- The objects on record and the rows of the tables belong together. -/
structure Recorded (db : Database) (history : List (Row Decimal)) : Prop where
  /-- What is on record was accepted by Postgres. -/
  accepted : ∀ row ∈ history, row.fits = true ∧ row.stored.failedCheck? = none
  /-- A transfer on record is in its table. -/
  transfer_stored : ∀ t, .transfer t ∈ history → t.stored ∈ db.transfers
  /-- A row of the table of transfers is on record. -/
  transfer_origin : ∀ row ∈ db.transfers, ∃ t, .transfer t ∈ history ∧ t.stored = row
  /-- A withdrawal on record is in its table. -/
  withdrawal_stored : ∀ w, .withdrawal w ∈ history →
    ∃ row ∈ db.withdrawals, row.asCreated = w.stored.asCreated
  /-- A row of the table of withdrawals is on record. -/
  withdrawal_origin : ∀ row ∈ db.withdrawals,
    ∃ w, .withdrawal w ∈ history ∧ w.stored.asCreated = row.asCreated

/-- A commit keeps the record and the tables together. -/
theorem Recorded.commit {i : ℕ} {T : Transaction} (hT : Commits sha256 t₀ ok c i T)
    (h : Recorded c.shared.db c.shared.history) :
    Recorded (c.shared.db.applyAll T.writes) ((c.sess i).inserted ++ c.shared.history) := by
  have htransfer {t : Transfer Decimal} := Transaction.transfer_mem_inserted hT.writes (t := t)
  have hwithdrawal {w : Withdrawal Decimal} :=
    Transaction.withdrawal_mem_inserted hT.writes (w := w)
  refine { accepted := ?_, transfer_stored := ?_, transfer_origin := ?_, withdrawal_stored := ?_,
           withdrawal_origin := ?_ }
  · intro row hrow
    rcases List.mem_append.mp hrow with hrow | hrow
    · -- the rows that the transaction inserts were checked when they were inserted
      have hinsert := Session.insert_mem_of_inserted hrow
      exact ⟨inserted_of_mem (fun _ _ _ hrow => hrow.fits) hT.run hinsert,
        checks_of_inserted hT.run hinsert⟩
    · exact h.accepted row hrow
  · intro t ht
    rw [Database.transfers_post]
    rcases List.mem_append.mp ht with ht | ht
    · exact List.mem_append_left _ (List.mem_map_of_mem (htransfer.mp ht))
    · exact List.mem_append_right _ (h.transfer_stored t ht)
  · intro row hrow
    rw [Database.transfers_post] at hrow
    rcases List.mem_append.mp hrow with hrow | hrow
    · obtain ⟨t, ht, rfl⟩ := List.mem_map.mp hrow
      exact ⟨t, List.mem_append_left _ (htransfer.mpr ht), rfl⟩
    · obtain ⟨t, ht, rfl⟩ := h.transfer_origin row hrow
      exact ⟨t, List.mem_append_right _ ht, rfl⟩
  · intro w hw
    rw [Database.withdrawals_post]
    rcases List.mem_append.mp hw with hw | hw
    · -- a withdrawal that the transaction inserts
      exact ⟨w.stored, List.mem_append_left _ (List.mem_map_of_mem (hwithdrawal.mp hw)), rfl⟩
    · obtain ⟨row, hrow, hsame⟩ := h.withdrawal_stored w hw
      -- an update keeps the columns that were written at the creation
      refine ⟨T.update row, List.mem_append_right _ (List.mem_map_of_mem hrow), ?_⟩
      rw [T.update_asCreated, hsame]
  · intro row hrow
    rcases Database.mem_withdrawals_post _ _ hrow with ⟨w, hw, rfl⟩ | ⟨old, hold, rfl⟩
    · exact ⟨w, List.mem_append_left _ (hwithdrawal.mpr hw), rfl⟩
    · obtain ⟨w, hw, hsame⟩ := h.withdrawal_origin old hold
      refine ⟨w, List.mem_append_right _ hw, ?_⟩
      rw [T.update_asCreated, hsame]

/-- In every run the record and the tables belong together. -/
theorem recorded (h : WalletRun sha256 t₀ ok c) : Recorded c.shared.db c.shared.history := by
  refine h.invariant (abides sha256 t₀) (I := fun w => Recorded w.shared.db w.shared.history) ?_
  refine { init := ?_, spawn := fun _ hI => hI, call := ?_, stop := fun _ hI _ => hI, env := ?_ }
  · exact ⟨fun _ h => (nomatch h), fun _ h => (nomatch h), fun _ h => (nomatch h),
      fun _ h => (nomatch h), fun _ h => (nomatch h)⟩
  · intro c i o r hcall hI
    dsimp only [afterCall, wallet]
    rcases (WalletStep.of_call hcall).commit_cases with ⟨hdb, -, hhistory, -⟩ | ⟨T, hT, -, hs⟩
    · rwa [hdb, hhistory]
    · rw [hs, Shared.commit, hT.writes]
      exact hI.commit hT
  · rintro c _ - hI ⟨clock, redis, rfl, -⟩
    exact hI

/-! ## Persistence -/

/-- Later tables hold the earlier transfers and withdrawals. -/
structure Persists (db db' : Database) : Prop where
  accounts : ∀ a ∈ db.accounts, a ∈ db'.accounts
  transfers : ∀ t ∈ db.transfers, t ∈ db'.transfers
  withdrawals : ∀ w ∈ db.withdrawals, ∃ w' ∈ db'.withdrawals, w'.asCreated = w.asCreated

/-- Nothing is lost without a step. -/
theorem Persists.refl (db : Database) : Persists db db :=
  ⟨fun _ h => h, fun _ h => h, fun w h => ⟨w, h, rfl⟩⟩

/-- Nothing is lost in two steps if nothing is in either. -/
theorem Persists.trans {a b d : Database} (h : Persists a b) (h' : Persists b d) :
    Persists a d where
  accounts := fun x hx => h'.accounts x (h.accounts x hx)
  transfers := fun t ht => h'.transfers t (h.transfers t ht)
  withdrawals := fun w hw => by
    obtain ⟨w₁, hw₁, hsame⟩ := h.withdrawals w hw
    obtain ⟨w₂, hw₂, hsame'⟩ := h'.withdrawals w₁ hw₁
    exact ⟨w₂, hw₂, hsame'.trans hsame⟩

/-- A transaction removes nothing and changes a withdrawal only along its saga. -/
theorem Transaction.persists (T : Transaction) (db : Database) :
    Persists db (db.applyAll T.writes) where
  accounts := fun _ ha => db.mem_accounts_applyAll.mpr (.inr ha)
  transfers := fun t ht => by
    rw [Database.transfers_post]
    exact List.mem_append_right _ ht
  withdrawals := fun w hw => by
    rw [Database.withdrawals_post]
    exact ⟨T.update w, List.mem_append_right _ (List.mem_map_of_mem hw), T.update_asCreated w⟩

/-- Between two points of a run nothing is removed. -/
theorem persists (h : WalletRun sha256 t₀ ok c) {c' : Wallet} (h' : (wallet sha256).Run ok c c') :
    Persists c.shared.db c'.shared.db :=
  database_monotone Persists.refl Persists.trans (fun {_ _ T} _ => T.persists _) h h'

/-! ## Entries of Redis -/

/-- Where an entry of Redis comes from: from a transfer that has completed, or from a withdrawal. -/
inductive CachedFrom (sha256 : String → String) (db : Database) (history : List (Row Decimal)) :
    String → CacheEntry → Prop
  | transfer {t : Transfer Decimal} : t.stored ∈ db.transfers → t.status = .completed →
      CachedFrom sha256 db history (transferCacheKey t.idempotencyKey) (t.cacheEntry sha256)
  | withdrawal {w : Withdrawal Decimal} : .withdrawal w ∈ history →
      CachedFrom sha256 db history (withdrawalCacheKey w.idempotencyKey) (w.cacheEntry sha256)

/-- An entry keeps its origin while tables and record grow. -/
theorem CachedFrom.mono {db db' : Database} {history history' : List (Row Decimal)} {key : String}
    {entry : CacheEntry} (h : CachedFrom sha256 db history key entry)
    (hdb : ∀ t ∈ db.transfers, t ∈ db'.transfers) (hhistory : ∀ r ∈ history, r ∈ history') :
    CachedFrom sha256 db' history' key entry := by
  cases h with
  | transfer ht hstatus => exact .transfer (hdb _ ht) hstatus
  | withdrawal hw => exact .withdrawal (hhistory _ hw)

/-- What the record and the tables hold stays there in a step. -/
theorem WalletStep.grows {i : ℕ} {σ' : Session} {s' : Shared}
    (h : WalletStep sha256 t₀ ok c i σ' s') :
    Persists c.shared.db s'.db ∧ ∀ r ∈ c.shared.history, r ∈ s'.history := by
  rcases h.commit_cases with ⟨hdb, -, hhistory, -⟩ | ⟨T, hT, -, hs⟩
  · rw [hdb, hhistory]
    exact ⟨.refl _, fun _ h => h⟩
  · rw [hs, Shared.commit, hT.writes]
    exact ⟨T.persists _, fun _ hr => List.mem_append_right _ hr⟩

/-- What a process has committed is on record, and the transfers that it has seen are in their
table. -/
theorem known_to_session (h : WalletRun sha256 t₀ ok c) (i : ℕ) :
    (∀ r ∈ (c.sess i).committed, r ∈ c.shared.history) ∧
      ∀ t ∈ (c.sess i).seen, t ∈ c.shared.db.transfers := by
  refine h.each (abides sha256 t₀) (J := fun s σ => (∀ r ∈ σ.committed, r ∈ s.history) ∧
    ∀ t ∈ σ.seen, t ∈ s.db.transfers) ?_ i
  refine { init := ?_, own := ?_, other := ?_, env := ?_ }
  · exact ⟨fun _ h => (nomatch h), fun _ h => (nomatch h)⟩
  · intro c i o r hcall hJ
    obtain ⟨hcommitted, hseen⟩ := hJ i
    obtain ⟨hgrows, -⟩ := (WalletStep.of_call hcall).grows
    dsimp only [wallet]
    cases WalletStep.of_call hcall with
    -- an operation that adds nothing to the log of the session
    | quiet _ hlog hs =>
        have hlog' := congrArg Log.committed hlog
        have hlog'' := congrArg Log.seen hlog
        simp only [Session.log] at hlog' hlog''
        rw [hs, hlog', hlog'']
        exact ⟨hcommitted, hseen⟩
    | reread row _ _ hσ hs =>
        have hlog := Session.log_readAgain (c.sess i) row
        have hlog' := congrArg Log.committed hlog
        have hlog'' := congrArg Log.seen hlog
        simp only [Session.log] at hlog' hlog''
        rw [hs, hσ, hlog', hlog'']
        exact ⟨hcommitted, hseen⟩
    -- a look-up by the key sees rows of the table only
    | saw key hσ hs =>
        rw [hs, hσ]
        refine ⟨hcommitted, fun t ht => ?_⟩
        rcases List.mem_append.mp ht with ht | ht
        · exact List.mem_of_find?_eq_some (Option.mem_toList.mp ht)
        · exact hseen t ht
    | drew _ _ hσ hs | cached _ _ _ hσ hs | paid _ _ _ _ hσ hs =>
        rw [hs, hσ]
        exact ⟨hcommitted, hseen⟩
    -- what is committed goes on record in this step
    | committed T hT hσ hs =>
        rw [hs] at hgrows ⊢
        rw [hσ]
        refine ⟨fun r hr => ?_, fun t ht => hgrows.transfers t (hseen t ht)⟩
        exact List.mem_append.mpr ((List.mem_append.mp hr).imp_right (hcommitted r))
  · intro c i o r j hcall hJ hj
    obtain ⟨hpersists, hhistory⟩ := (WalletStep.of_call hcall).grows
    exact ⟨fun r hr => hhistory r ((hJ j).1 r hr),
      fun t ht => hpersists.transfers t ((hJ j).2 t ht)⟩
  · rintro c _ σ - hJ ⟨clock, redis, rfl, -⟩
    exact hJ

/-- An entry that a process may put into Redis comes from a transfer or from a withdrawal. -/
theorem Cacheable.cachedFrom {i : ℕ} {key : String} {entry : CacheEntry}
    (hcacheable : Cacheable sha256 (c.sess i) key entry) (h : WalletRun sha256 t₀ ok c) :
    CachedFrom sha256 c.shared.db c.shared.history key entry := by
  obtain ⟨hcommitted, hseen⟩ := known_to_session h i
  cases hcacheable with
  | transferred ht hstatus =>
      exact .transfer ((recorded h).transfer_stored _ (hcommitted _ ht)) hstatus
  | @replayed t ht hstatus =>
      refine .transfer (t := t.loaded) ?_ hstatus
      simpa [Transfer.map] using hseen t ht
  | reserved hw => exact .withdrawal (hcommitted _ hw)

/-- What holds of the entries that may be put into Redis, and goes on to hold of them, holds of all
entries of Redis in every run. -/
theorem redis_invariant {P : Database → List (Row Decimal) → String → CacheEntry → Prop}
    (hmono : ∀ {db db' history history' key entry}, P db history key entry → Persists db db' →
      (∀ r ∈ history, r ∈ history') → P db' history' key entry)
    (hcacheable : ∀ {c : Wallet} {i key entry}, WalletRun sha256 t₀ ok c →
      Cacheable sha256 (c.sess i) key entry → P c.shared.db c.shared.history key entry)
    (h : WalletRun sha256 t₀ ok c) {key : String} {entry : CacheEntry}
    (hentry : c.shared.redis key = some entry) : P c.shared.db c.shared.history key entry := by
  refine h.invariant (abides sha256 t₀)
    (I := fun w => ∀ key entry, w.shared.redis key = some entry →
    P w.shared.db w.shared.history key entry) ?_ key entry hentry
  refine { init := ?_, spawn := fun _ hI => hI, call := ?_, stop := fun _ hI _ => hI, env := ?_ }
  · exact fun key entry h => nomatch h
  · intro c i o r hcall hI key entry hentry
    dsimp only [afterCall, wallet] at hentry ⊢
    have hstep := WalletStep.of_call hcall
    obtain ⟨hpersists, hhistory⟩ := hstep.grows
    refine hmono ?_ hpersists hhistory
    cases hstep with
    | cached key' entry' hcached _ hs =>
        rw [hs] at hentry
        dsimp only at hentry
        by_cases hkey : key = key'
        · subst hkey
          rw [Function.update_self] at hentry
          obtain rfl := Option.some.inj hentry
          -- the guard of `redis.set` says what the entry is made from
          exact hcacheable hcall.run hcached
        · rw [Function.update_of_ne hkey] at hentry
          exact hI key entry hentry
    | quiet _ _ hs | drew _ _ _ hs | saw _ _ hs | reread _ _ _ _ hs | paid _ _ _ _ _ hs
    | committed _ _ _ hs =>
        rw [hs] at hentry
        exact hI key entry hentry
  · rintro c _ - hI ⟨clock, redis, rfl, -, hredis⟩ key entry hentry
    dsimp only at hentry
    rcases hredis key with hsame | hgone
    · exact hI key entry (hsame ▸ hentry)
    · rw [hgone] at hentry
      cases hentry

/-- In every run an entry of Redis comes from a transfer or from a withdrawal in the tables. -/
theorem cachedFrom (h : WalletRun sha256 t₀ ok c) {key : String} {entry : CacheEntry}
    (hentry : c.shared.redis key = some entry) :
    CachedFrom sha256 c.shared.db c.shared.history key entry :=
  redis_invariant (fun hfrom hpersists hhistory => hfrom.mono hpersists.transfers hhistory)
    (fun hrun hcacheable => hcacheable.cachedFrom hrun) h hentry

end MiniWallet

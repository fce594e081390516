import MiniWallet.Safety.Commits

/-!
# Withdrawals and their creators

The process that creates a withdrawal keeps the object in memory and writes it back by primary key.
Until another process changes the row, the object and the row agree.

* `withdrawal_unique`: a withdrawal is determined by its identifier.
* `known_of_owned`: the row of an object that a creator holds exists and moves the same amount.
* `owned_disjoint`: no withdrawal has two creators.
* `owned_current`: the row agrees with the object, or the creator has been overtaken.
-/

namespace MiniWallet

open Numeric Process System State

variable {sha256 : String → String} {t₀ : Time} {ok : State → Event → Prop} {c : Wallet}

/-! ## Uniqueness -/

/-- Rows that share a unique key are equal. -/
theorem row_unique (h : WalletRun sha256 t₀ ok c) {r r' : Row Ticks} {k : UniqueKey}
    (hr : r ∈ c.shared.db.rows) (hr' : r' ∈ c.shared.db.rows) (hk : k ∈ r.keys)
    (hk' : k ∈ r'.keys) :
    r = r' := by
  have hnodup : c.shared.db.keys.Nodup := (keys_nodup h 0).of_append_right
  have hdisj := (List.nodup_flatMap.mp hnodup).2
  have : Std.Symm (Function.onFun List.Disjoint (Row.keys : Row Ticks → List UniqueKey)) :=
    ⟨fun _ _ hd => hd.symm⟩
  by_contra hne
  exact hdisj.forall hr hr' hne hk hk'

/-- The table of withdrawals among the rows of the database. -/
theorem Database.mem_withdrawals {db : Database} {w : Withdrawal Ticks} :
    w ∈ db.withdrawals ↔ .withdrawal w ∈ db.rows := by
  simp only [Database.withdrawals, List.mem_filterMap]
  constructor
  · rintro ⟨r, hr, heq⟩
    cases r <;> cases heq
    exact hr
  · exact fun hr => ⟨_, hr, rfl⟩

/-- A withdrawal is determined by its identifier. -/
theorem withdrawal_unique (h : WalletRun sha256 t₀ ok c) :
    ∀ w ∈ c.shared.db.withdrawals, ∀ w' ∈ c.shared.db.withdrawals, w.id = w'.id → w = w' := by
  intro w hw w' hw' hid
  have hkey : UniqueKey.pkey .withdrawals w.id ∈ (Row.withdrawal w').keys := by
    rw [hid]
    exact List.mem_cons_self ..
  have := row_unique h (Database.mem_withdrawals.mp hw) (Database.mem_withdrawals.mp hw')
    (List.mem_cons_self ..) hkey
  injection this

/-- A key that an open transaction has taken is not committed. -/
theorem not_mem_keys (h : WalletRun sha256 t₀ ok c) {i : ℕ} {row : Row Decimal} {k : UniqueKey}
    (hrow : .insert row ∈ (c.sess i).writes) (hk : k ∈ row.keys) : k ∉ c.shared.db.keys := by
  have hmem : k ∈ (c.sess i).keys := List.mem_flatMap.mpr ⟨.insert row, hrow, hk⟩
  exact fun hdb => List.disjoint_of_nodup_append (keys_nodup h i) hmem hdb

/-- The withdrawal that a transaction inserts is new. -/
theorem Commits.new_withdrawal {i : ℕ} {T : Transaction} (hT : Commits sha256 t₀ ok c i T)
    {w : Withdrawal Decimal} (hw : w ∈ T.withdrawals) :
    ∀ row ∈ c.shared.db.withdrawals, row.id ≠ w.id := by
  intro row hrow hid
  have hinsert : .insert (.withdrawal w) ∈ (c.sess i).writes := by
    rw [hT.writes]
    cases T with
    | reserved w' e event =>
        obtain rfl := List.mem_singleton.mp hw
        exact List.mem_cons_self ..
    | _ => cases hw
  refine not_mem_keys hT.run hinsert (k := .pkey .withdrawals w.id) (List.mem_cons_self ..) ?_
  rw [← hid]
  exact List.mem_flatMap.mpr ⟨_, Database.mem_withdrawals.mp hrow, List.mem_cons_self ..⟩

/-! ## The creator's object -/

/-- What a commit leaves of a row. -/
theorem Commits.update_mem {i : ℕ} {T : Transaction} (hT : Commits sha256 t₀ ok c i T)
    {row : Withdrawal Ticks} (hrow : row ∈ c.shared.db.withdrawals) :
    T.update row ∈ (c.shared.commit (c.sess i)).db.withdrawals := by
  rw [Shared.commit, hT.writes, Database.withdrawals_post]
  exact List.mem_append_right _ (List.mem_map_of_mem hrow)

/-- The object that a process holds after a commit is the one that it has inserted, or the updated
one that it held before. -/
theorem Commits.owned_cases {i : ℕ} {T : Transaction} (hT : Commits sha256 t₀ ok c i T)
    {w : Withdrawal Decimal} (hw : (c.sess i).commit.owned = some w) :
    (w ∈ T.withdrawals ∧ w.stored ∈ (c.shared.commit (c.sess i)).db.withdrawals) ∨
      ∃ w', (c.sess i).owned = some w' ∧ w = T.update w' := by
  rw [Session.commit_owned hT.writes] at hw
  rcases Option.or_eq_some_iff.mp hw with hw | ⟨-, hw⟩
  · have hmem := List.mem_of_head? hw
    refine .inl ⟨hmem, ?_⟩
    rw [Shared.commit, hT.writes, Database.withdrawals_post]
    exact List.mem_append_left _ (List.mem_map_of_mem hmem)
  · obtain ⟨w', hw', rfl⟩ := Option.map_eq_some_iff.mp hw
    exact .inr ⟨w', hw', rfl⟩

/-- The row of an object that a creator holds exists and moves the same amount. -/
theorem known_of_owned (h : WalletRun sha256 t₀ ok c) {i : ℕ} {w : Withdrawal Decimal}
    (hw : (c.sess i).owned = some w) :
    ∃ row ∈ c.shared.db.withdrawals, row.reservation = w.stored.reservation := by
  refine h.each (abides sha256 t₀) (J := fun s σ => ∀ w, σ.owned = some w →
    ∃ row ∈ s.db.withdrawals, row.reservation = w.stored.reservation) ?_ i w hw
  refine { init := ?_, own := ?_, other := ?_, env := ?_ }
  · exact fun w hw => nomatch hw
  · intro c i o r hcall hJ w hw
    dsimp only [wallet] at hw ⊢
    rcases (WalletStep.of_call hcall).commit_cases with ⟨hdb, -, -, howned, -⟩ | ⟨T, hT, hσ, hs⟩
    · rw [hdb]
      exact hJ i w (howned ▸ hw)
    · rw [hs]
      rw [hσ] at hw
      -- the withdrawal has just been created, or it is updated by this commit
      rcases hT.owned_cases hw with ⟨-, hmem⟩ | ⟨w', hw', rfl⟩
      · exact ⟨w.stored, hmem, rfl⟩
      · obtain ⟨row, hrow, hres⟩ := hJ i w' hw'
        refine ⟨T.update row, hT.update_mem hrow, ?_⟩
        rw [← T.update_stored, T.update_reservation, T.update_reservation, hres]
  · intro c i o r j hcall hJ hj w hw
    dsimp only [wallet]
    obtain ⟨row, hrow, hres⟩ := hJ j w hw
    -- another process commits, which keeps what the withdrawal moves
    rcases (WalletStep.of_call hcall).commit_cases with ⟨hdb, -⟩ | ⟨T, hT, -, hs⟩
    · rw [hdb]
      exact ⟨row, hrow, hres⟩
    · rw [hs]
      exact ⟨T.update row, hT.update_mem hrow, (T.update_reservation row).trans hres⟩
  · rintro c _ σ - hJ ⟨clock, redis, rfl, -⟩
    exact hJ

/-- The reservation tells whose withdrawal it is. -/
theorem Withdrawal.id_eq_of_reservation_eq {α : Type} {w w' : Withdrawal α}
    (h : w.reservation = w'.reservation) : w.id = w'.id :=
  Option.some.inj (congrArg Movement.reference h)

/-- No withdrawal has two creators. -/
theorem owned_disjoint (h : WalletRun sha256 t₀ ok c) {i j : ℕ} (hij : i ≠ j)
    {w w' : Withdrawal Decimal}
    (hw : (c.sess i).owned = some w) (hw' : (c.sess j).owned = some w') :
    w.id ≠ w'.id := by
  refine h.pairwise (abides sha256 t₀) (K := fun σ σ' => ∀ w w', σ.owned = some w →
    σ'.owned = some w' → w.id ≠ w'.id) ?_ ?_ ?_ hij w w' hw hw'
  · exact fun hK w w' hw hw' => (hK w' w hw' hw).symm
  · exact fun σ w w' hw => nomatch hw
  · intro c i j o r hcall hj hK w w' hw hw'
    dsimp only [wallet] at hw
    rcases (WalletStep.of_call hcall).commit_cases with ⟨-, -, -, howned, -⟩ | ⟨T, hT, hσ, -⟩
    · exact hK w w' (howned ▸ hw) hw'
    · rw [hσ] at hw
      -- the withdrawal is new, or the object that the process has held before
      rcases hT.owned_cases hw with ⟨hmem, -⟩ | ⟨w₀, hw₀, rfl⟩
      · -- a new withdrawal has an identifier that no row has, and the other object is the one of a
        -- row
        obtain ⟨row, hrow, hres⟩ := known_of_owned hcall.run hw'
        have hne := hT.new_withdrawal hmem row hrow
        rw [Withdrawal.id_eq_of_reservation_eq hres] at hne
        exact fun heq => hne heq.symm
      · rw [T.update_id]
        exact hK w₀ w' hw₀ hw'

/-- The row of a withdrawal agrees with the object that its creator holds, unless another process
has changed the row. -/
theorem owned_current (h : WalletRun sha256 t₀ ok c) {i : ℕ} {w : Withdrawal Decimal}
    (hw : (c.sess i).owned = some w) (hover : w.id ∉ c.shared.overtaken) :
    w.stored ∈ c.shared.db.withdrawals := by
  refine h.each (abides sha256 t₀) (J := fun s σ => ∀ w, σ.owned = some w →
    w.id ∉ s.overtaken → w.stored ∈ s.db.withdrawals) ?_ i w hw hover
  refine { init := ?_, own := ?_, other := ?_, env := ?_ }
  · exact fun w hw => nomatch hw
  · intro c i o r hcall hJ w hw hover
    dsimp only [wallet] at hw hover ⊢
    rcases (WalletStep.of_call hcall).commit_cases with
      ⟨hdb, hovers, -, howned, -⟩ | ⟨T, hT, hσ, hs⟩
    · rw [hdb]
      exact hJ i w (howned ▸ hw) (hovers ▸ hover)
    · rw [hs] at hover ⊢
      rw [hσ] at hw
      rcases hT.owned_cases hw with ⟨-, hmem⟩ | ⟨w', hw', rfl⟩
      · exact hmem
      · rw [← T.update_stored]
        rw [T.update_id] at hover
        exact hT.update_mem (hJ i w' hw' fun hmem => hover (List.mem_append_right _ hmem))
  · intro c i o r j hcall hJ hj w hw hover
    dsimp only [wallet] at hover ⊢
    rcases (WalletStep.of_call hcall).commit_cases with ⟨hdb, hovers, -⟩ | ⟨T, hT, -, hs⟩
    · rw [hdb]
      exact hJ j w hw (hovers ▸ hover)
    · rw [hs] at hover ⊢
      have hold := hJ j w hw fun hmem => hover (List.mem_append_right _ hmem)
      -- an update by the other process would have put the withdrawal among the overtaken ones
      have hsame : T.update w.stored = w.stored := by
        refine Transaction.update_of_ne fun u hu hid => hover ?_
        refine List.mem_append_left _ (List.mem_filter.mpr ⟨?_, ?_⟩)
        · exact (Transaction.mem_changes hT.writes).mpr ⟨u, hu, hid⟩
        · have hnot : (c.sess i).owned.map (·.id) ≠ some w.id := by
            intro heq
            obtain ⟨w', hw', hid'⟩ := Option.map_eq_some_iff.mp heq
            exact owned_disjoint hcall.run hj hw hw' hid'.symm
          simpa [Session.owns] using hnot
      rw [← hsame]
      exact hT.update_mem hold
  · rintro c _ σ - hJ ⟨clock, redis, rfl, -⟩
    exact hJ

end MiniWallet

import MiniWallet.Server.Semantics

/-!
# What the end of an operation tells

One lemma for each operation: the results it can end with, and what they say about the state in
which it ended. Later proofs use these and never unfold `reply`.
-/

namespace MiniWallet

open Process State

variable {w : State} {i : ℕ}

/-- A server answers, or fails. -/
theorem Choice.server_eq_some {α : Type} {choice : Choice} {failure : Exc}
    {answer : Option (Except Exc α)} {r : Except Exc α}
    (h : choice.server failure answer = some r) :
    answer = some r ∨ r = .error failure := by
  cases choice with
  | proceed => exact .inl h
  | fail => exact .inr (Option.some.inj h).symm
  | _ => cases h

/-- The clock is read. -/
theorem ends_now {r : Except Exc Time} (h : Ends w i .now r) : r = .ok w.shared.clock := by
  obtain ⟨choice, h⟩ := h
  cases choice with
  | proceed => exact (Option.some.inj h).symm
  | _ => cases h

/-- A new identifier is drawn. -/
theorem ends_uuid4 {r : Except Exc UUID} (h : Ends w i .uuid4 r) :
    ∃ id, id ∉ w.shared.issued ∧ r = .ok id := by
  obtain ⟨choice, h⟩ := h
  cases choice with
  | fresh id =>
      change (if id ∈ w.shared.issued then none else some (.ok id)) = some r at h
      split at h
      · cases h
      · next hid => exact ⟨id, hid, (Option.some.inj h).symm⟩
  | _ => cases h

/-- Redis returns the entry under the key, or fails. -/
theorem ends_cacheGet {key : String} {r : Except Exc (Option CacheEntry)}
    (h : Ends w i (.cacheGet key) r) : r = .ok (w.shared.redis key) ∨ r = .error .redisError := by
  obtain ⟨choice, h⟩ := h
  exact (Choice.server_eq_some h).imp_left fun h => (Option.some.inj h).symm

/-- Redis answers a command of the circuit breaker, or fails. -/
theorem ends_breaker {c : BreakerCommand} {r : Except Exc c.Reply} (h : Ends w i (.breaker c) r) :
    r = .ok (c.reply w.shared.breaker w.shared.clock) ∨ r = .error .redisError := by
  obtain ⟨choice, h⟩ := h
  exact (Choice.server_eq_some h).imp_left fun h => (Option.some.inj h).symm

/-- Postgres evaluates the query in the view of the transaction, or fails. -/
theorem ends_select {q : Query} {r : Except Exc q.Result} (h : Ends w i (.select q) r) :
    r = .ok (q.eval (view w i)) ∨ r = .error .operationalError := by
  obtain ⟨choice, h⟩ := h
  exact (Choice.server_eq_some h).imp_left fun h => (Option.some.inj h).symm

/-- An account is returned once no other transaction holds it. -/
theorem ends_lockAccount {id : UUID} {r : Except Exc (Option Account)}
    (h : Ends w i (.lockAccount id) r) :
    (r = .ok ((view w i).accountById id) ∧ ¬ LockedByOther w i (.account id)) ∨
      r = .error .operationalError := by
  obtain ⟨choice, h⟩ := h
  refine (Choice.server_eq_some h).imp_left fun h => ?_
  split at h
  · cases h
  · next hl => exact ⟨(Option.some.inj h).symm, hl⟩

/-- A withdrawal is returned once no other transaction holds it. -/
theorem ends_lockWithdrawal {id : UUID} {r : Except Exc (Option (Withdrawal Ticks))}
    (h : Ends w i (.lockWithdrawal id) r) :
    (r = .ok ((view w i).withdrawalById id) ∧ ¬ LockedByOther w i (.withdrawal id)) ∨
      r = .error .operationalError := by
  obtain ⟨choice, h⟩ := h
  refine (Choice.server_eq_some h).imp_left fun h => ?_
  split at h
  · cases h
  · next hl => exact ⟨(Option.some.inj h).symm, hl⟩

/-- The rows that are claimed are stuck and not locked, or the query fails. -/
theorem ends_claimStuck {cutoff : Time} {limit : ℕ} {r : Except Exc (List UUID)}
    (h : Ends w i (.claimStuck cutoff limit) r) :
    (∃ ids, r = .ok ids ∧ Claimable w i cutoff limit ids) ∨ r = .error .operationalError := by
  obtain ⟨choice, h⟩ := h
  cases choice with
  | claim ids =>
      change (if Claimable w i cutoff limit ids then some (.ok ids) else none) = some r at h
      split at h
      · next hc => exact .inl ⟨ids, (Option.some.inj h).symm, hc⟩
      · cases h
  | fail => exact .inr (Option.some.inj h).symm
  | _ => cases h

/-- A write ends with the verdict of Postgres, or fails. -/
theorem ends_write {wr : Write} {r : Except Exc Unit} (h : Ends w i (.write wr) r) :
    verdict w i wr = some r ∨ r = .error .operationalError := by
  obtain ⟨choice, h⟩ := h
  exact Choice.server_eq_some h

/-- What Postgres has checked when an `INSERT` succeeds. -/
structure Insertable (w : State) (i : ℕ) (row : Row Numeric.Decimal) : Prop where
  fits : row.fits = true
  checks : row.stored.failedCheck? = none
  unique : ∀ k ∈ row.keys, k ∉ (view w i).keys
  free : ¬ TakenByOther w i row.keys
  accounts : ∀ fk ∈ row.foreignKeys, ((view w i).accountById fk.1).isSome

/-- A row that was inserted could be inserted. -/
theorem insertable_of_verdict {row : Row Numeric.Decimal} {u : Unit}
    (h : verdict w i (.insert row) = some (.ok u)) : Insertable w i row := by
  simp only [verdict] at h
  split at h
  · cases h
  · -- each check that could refuse the row has passed
    next hfits =>
    split at h
    · cases h
    · next hchecks =>
      split at h
      · cases h
      · next hunique =>
        split at h
        · cases h
        · next hfree =>
          split at h
          · cases h
          · next haccounts =>
            refine ⟨by simpa using hfits, hchecks, fun k hk => ?_, hfree, fun fk hfk => ?_⟩
            · simpa using List.find?_eq_none.mp hunique k hk
            · simpa [Option.isSome_iff_ne_none] using List.find?_eq_none.mp haccounts fk hfk

/-- A withdrawal that was updated exists, and no other transaction holds it. -/
theorem setWithdrawal_of_verdict {id : UUID} {set : WithdrawalSet} {u : Unit}
    (h : verdict w i (.setWithdrawal id set) = some (.ok u)) :
    ¬ LockedByOther w i (.withdrawal id) ∧ ((view w i).withdrawalById id).isSome := by
  simp only [verdict] at h
  split at h
  · cases h
  · split at h
    · cases h
    · next hl =>
      split at h
      · cases h
      · next hsome =>
        exact ⟨hl, by simpa [Option.isSome_iff_ne_none] using hsome⟩

/-- The texts of an update that succeeds fit their columns. -/
theorem fits_of_verdict {id : UUID} {set : WithdrawalSet} {u : Unit}
    (h : verdict w i (.setWithdrawal id set) = some (.ok u)) : set.fits = true := by
  simp only [verdict] at h
  split at h
  · cases h
  · next hfits => simpa using hfits

end MiniWallet

import MiniWallet.Services.Circuit

/-!
# Consecutive failures

The circuit opens after a number of failures in a row. Their count is one key in Redis, which every
report of every call changes, also reports of calls that entered in an earlier state of the circuit.

* `breakers`: the system of all calls, through instances that agree on the threshold and on nothing
  else.
* `Chronicle`: the failures since the last success, and what each call has awaited, as an observer
  sees them.
* `Counts`: the invariant of the keys. `Counts.command`: every command keeps it.
* `counts_consecutive_failures`: in every reachable state the count of a closed circuit is right and
  below the threshold, and a call gets through an open circuit only by its own claim.
-/

namespace MiniWallet

open Process

variable {α : Type} {threshold : ℤ} {t₀ : Time}

/-- The calls through any circuit breakers that have the same threshold. -/
def breakers (threshold : ℤ) (α : Type) : System Op Op.Out Exc α Circuit Visit where
  idle := {}
  enabled := fun _ o r w => w.shared.Ends o r
  after := Visit.after
  effect := Circuit.effect
  env := fun s s' => ∃ clock, s.clock ≤ clock ∧ s' = { s with clock := clock }
  start := fun p => ∃ (cb : CircuitBreaker) (fn : Program α), cb.failureThreshold = threshold ∧
    fn.Awaits (fun o => o.isBreaker = false) ∧ p = cb.call fn

/-! ## The observer -/

/-- What the calls have done. -/
structure Chronicle where
  /-- The failures that have been recorded since the last recorded success, or since the start. -/
  failures : ℕ := 0
  /-- What each call has awaited, and how that ended. -/
  awaited : ℕ → List ((o : Op) × Except Exc o.Out) := fun _ => []
  /-- The calls whose claim script has moved the circuit from open to half-open. -/
  moved : List ℕ := []

/-- The consecutive failures after a step. -/
def countFailures : CallEvent → ℕ → ℕ
  | .call _ (.breaker .recordSuccess) (.ok _), _ => 0
  | .call _ (.breaker (.recordFailure _ _)) (.ok _), n => n + 1
  | _, n => n

/-- The calls that have moved the circuit after a step. -/
def countMoves (s : Circuit) : CallEvent → List ℕ → List ℕ
  | .call i (.breaker (.claimProbe ttl)) (.ok _), calls =>
      if s.breaker.stored = .open ∧
          ((BreakerCommand.claimProbe ttl).effect s.breaker s.clock).stored = .halfOpen then
        i :: calls
      else calls
  | _, calls => calls

/-- The observer of the calls. -/
def chronicler : Observer Op Op.Out Exc Circuit Visit Chronicle where
  start := {}
  next := fun w l g =>
    { failures := countFailures l g.failures
      awaited := l.log g.awaited
      moved := countMoves w.shared l g.moved }

/-- The observer keeps the logs of the calls. -/
theorem chronicler_logs : chronicler.Logs Chronicle.awaited where
  start := fun _ => rfl
  next := fun _ _ _ => rfl

/-- The first thing that the call has read is that the circuit is open. -/
def ReadsOpen (log : List ((o : Op) × Except Exc o.Out)) : Prop :=
  log.head? = some ⟨.breaker .getState, .ok (some CircuitState.open)⟩

/-- The call has got through the circuit, and invokes its function. -/
def Invokes (cb : CircuitBreaker) (log : List ((o : Op) × Except Exc o.Out)) : Prop :=
  ∃ entered rest, log = entered ++ rest ∧ cb.enter.Executes entered (.pure ())

/-! ## The count -/

/-- What a call reports: its failures under the common threshold. -/
def reports (threshold : ℤ) : Contract Op Op.Out Exc Visit where
  guard
    | .breaker (.recordFailure t _), _ => t = threshold
    | _, _ => True
  possible := fun _ _ _ => True

/-- The calls report under the common threshold. -/
theorem reports_abides (threshold : ℤ) (α : Type) (s : Circuit) :
    (breakers threshold α).Abides (reports threshold) s where
  possible := fun _ _ => trivial
  safe := by
    rintro p ⟨cb, fn, rfl, hfn, rfl⟩
    refine Contract.wp_of_stronger _ _ (fun o σ hguard => ?_) (fun _ _ _ _ _ => trivial)
      (checks_call cb hfn)
    cases o with
    | breaker command =>
        cases command with
        | recordFailure t now => exact hguard.1
        | _ => trivial
    | _ => trivial

/-- The keys agree with the consecutive failures: a closed circuit counts them, and has not had
enough of them to open; and a circuit that is not closed knows when the last one was. -/
structure Counts (threshold : ℤ) (failures : ℕ) (b : Breaker) : Prop where
  count : b.stored = .closed → b.failureCount.getD 0 = failures
  few : b.stored = .closed → (failures : ℤ) < threshold
  dated : b.stored ≠ .closed → b.lastFailureAt.isSome = true

namespace Counts

variable {n : ℕ} {b : Breaker}

/-- A claim leaves the count alone, and only an open circuit changes its state by it. -/
theorem claimProbe (h : Counts threshold n b) (clock : Time) (ttl : ℤ) :
    Counts threshold n ((BreakerCommand.claimProbe ttl).effect b clock) := by
  rw [BreakerCommand.effect]
  split
  · next hclaimable =>
      have hopen : b.stored = .open := by
        rw [Breaker.stored, (Breaker.claimable_iff.mp hclaimable).1]
        rfl
      have hdated : b.lastFailureAt.isSome = true := h.dated (by rw [hopen]; decide)
      exact ⟨by rintro ⟨⟩, by rintro ⟨⟩, fun _ => hdated⟩
  · exact h

/-- A success starts the count again. -/
theorem recordSuccess (hpos : 1 ≤ threshold) (b : Breaker) (clock : Time) :
    Counts threshold 0 (BreakerCommand.recordSuccess.effect b clock) where
  count := fun _ => rfl
  few := fun _ => by
    have hzero : ((0 : ℕ) : ℤ) = 0 := rfl
    omega
  dated := fun hstate => absurd rfl hstate

/-- A failure is counted, and the one that reaches the threshold opens the circuit. -/
theorem recordFailure (h : Counts threshold n b) (clock now : Time) :
    Counts threshold (n + 1) ((BreakerCommand.recordFailure threshold now).effect b clock) := by
  simp only [BreakerCommand.effect]
  split
  · -- a half-open circuit opens again
    exact ⟨fun hclosed => (nomatch hclosed), fun hclosed => (nomatch hclosed), fun _ => rfl⟩
  · split
    · exact ⟨fun hclosed => (nomatch hclosed), fun hclosed => (nomatch hclosed), fun _ => rfl⟩
    · next hfew =>
        -- the state stays as it is, so a closed circuit goes on counting
        have hcount (hclosed : b.stored = .closed) : b.failureCount.getD 0 = n := h.count hclosed
        refine ⟨fun hclosed => ?_, fun hclosed => ?_, fun _ => rfl⟩
        · have hn := hcount hclosed
          rw [hn]
          simp
        · have hn := hcount hclosed
          push_cast
          omega

end Counts

/-- In every run the keys agree with the consecutive failures. -/
theorem counts (hpos : 1 ≤ threshold) {g : Chronicle} {c : Calls α}
    (h : Observes chronicler (breakers threshold α) anyObserved { clock := t₀ } g c) :
    Counts threshold g.failures c.shared.breaker := by
  refine h.invariant (reports_abides threshold α _)
    (I := fun g w => Counts threshold g.failures w.shared.breaker) ?_
  refine { init := ?_, spawn := fun hI => hI, call := ?_, stop := fun hI => hI, env := ?_ }
  · exact ⟨fun _ => rfl, fun _ => lt_of_lt_of_le Int.zero_lt_one hpos,
      fun hstate => absurd rfl hstate⟩
  · intro g c i o r hcall _ hI
    cases o with
    | breaker command =>
        cases r with
        | error e => cases command <;> exact hI
        | ok reply =>
            cases command with
            | getState | getLastFailureAt | probeExists => exact hI
            | claimProbe ttl => exact hI.claimProbe c.shared.clock ttl
            | setProbe ttl =>
                -- the slot is not part of what is counted
                dsimp only [System.afterCall, breakers, Circuit.effect, BreakerCommand.effect]
                split
                · exact hI
                · exact ⟨hI.count, hI.few, hI.dated⟩
            | recordSuccess => exact Counts.recordSuccess hpos c.shared.breaker c.shared.clock
            | recordFailure t now =>
                obtain rfl : t = threshold := hcall.guard
                exact hI.recordFailure c.shared.clock now
    | _ => exact hI
  · rintro g w _ hI ⟨clock, -, rfl⟩
    exact hI

/-! ## The claims -/

/-- A call that gets through a circuit which it has found open has claimed the probe slot. -/
theorem claims_of_invokes {cb : CircuitBreaker} {log : List ((o : Op) × Except Exc o.Out)}
    (hopen : ReadsOpen log) (hinvokes : Invokes cb log) :
    ∃ ttl, (⟨.breaker (.claimProbe ttl), .ok true⟩ : (o : Op) × Except Exc o.Out) ∈ log := by
  obtain ⟨entered, rest, rfl, henter⟩ := hinvokes
  rw [CircuitBreaker.enter] at henter
  obtain ⟨state, read, later, rfl, hread, hlater⟩ := henter.of_bind
  obtain rfl := hread.of_perform
  -- the call has found the circuit open, so it goes on with the cooldown
  obtain rfl : state = some CircuitState.open := by
    have hstate := (Sigma.mk.inj (Option.some.inj hopen)).2
    exact Except.ok.inj (eq_of_heq hstate)
  obtain ⟨elapsed, waited, later, rfl, -, hlater⟩ := hlater.of_bind
  cases elapsed with
  | false => cases hlater
  | true =>
      rw [if_pos rfl] at hlater
      obtain ⟨claimed, claim, last, rfl, hclaim, hlast⟩ := hlater.of_bind
      obtain rfl := hclaim.of_perform
      cases claimed with
      | false => cases hlast
      | true => exact ⟨probeTtlSeconds, by simp⟩

/-- Every call whose claim was granted has moved the circuit. -/
theorem moved_of_claims {g : Chronicle} {c : Calls α}
    (h : Observes chronicler (breakers threshold α) anyObserved { clock := t₀ } g c) {i : ℕ}
    {ttl : ℤ}
    (hclaims : (⟨.breaker (.claimProbe ttl), .ok true⟩ : (o : Op) × Except Exc o.Out) ∈
      g.awaited i) :
    i ∈ g.moved := by
  refine h.invariant (System.abides_any _) (I := fun g _ => ∀ i ttl,
    (⟨.breaker (.claimProbe ttl), .ok true⟩ : (o : Op) × Except Exc o.Out) ∈ g.awaited i →
      i ∈ g.moved)
    ?_ i ttl hclaims
  refine ⟨?_, fun hI => hI, ?_, fun hI => hI, fun hI _ => hI⟩
  · exact fun i ttl hmem => absurd hmem List.not_mem_nil
  · intro g c j o r hcall _ hI i ttl hmem
    -- a call that has moved the circuit stays among those that have
    have hkeep {k : ℕ} (hk : k ∈ g.moved) : k ∈ countMoves c.shared (.call j o r) g.moved := by
      unfold countMoves
      split
      · split
        · exact List.mem_cons_of_mem _ hk
        · exact hk
      · exact hk
    by_cases hown : i = j
    · subst hown
      have hlog : (⟨.breaker (.claimProbe ttl), .ok true⟩ : (o : Op) × Except Exc o.Out) ∈
          Function.update g.awaited i (g.awaited i ++ [⟨o, r⟩]) i := hmem
      rw [Function.update_self, List.mem_append, List.mem_singleton] at hlog
      rcases hlog with hold | hnew
      · exact hkeep (hI i ttl hold)
      · -- the claim has just been granted, so the circuit was open
        obtain ⟨rfl, hr⟩ := Sigma.mk.inj hnew
        obtain rfl := eq_of_heq hr
        have hend : c.shared.Ends (.breaker (.claimProbe ttl)) (.ok true) := hcall.enabled
        rcases hend with hreply | hfails
        · have hclaimable : c.shared.breaker.claimable c.shared.clock = true :=
            (Except.ok.inj hreply).symm
          have hopen := Breaker.stored_open.mpr (Breaker.claimable_iff.mp hclaimable).1
          have hhalf : ((BreakerCommand.claimProbe ttl).effect c.shared.breaker
              c.shared.clock).stored = .halfOpen := by
            rw [BreakerCommand.effect, if_pos hclaimable]
            rfl
          have hmoves : countMoves c.shared
            (.call i (.breaker (.claimProbe ttl)) (.ok true)) g.moved =
              i :: g.moved := if_pos ⟨hopen, hhalf⟩
          dsimp only [chronicler]
          rw [hmoves]
          exact List.mem_cons_self
        · cases hfails
    · have hlog : (⟨.breaker (.claimProbe ttl), .ok true⟩ : (o : Op) × Except Exc o.Out) ∈
          Function.update g.awaited j (g.awaited j ++ [⟨o, r⟩]) i := hmem
      rw [Function.update_of_ne hown] at hlog
      exact hkeep (hI i ttl hlog)

/-! ## All calls -/

/-- In every reachable state a closed circuit has counted exactly the failures since the last
success, which are fewer than the threshold, and a circuit that is not closed knows when the last
failure was. Every call does what the code says, and if it has found the circuit open, then it
invokes its function only if its own claim has moved the circuit to half-open. -/
theorem counts_consecutive_failures (hpos : 1 ≤ threshold) {g : Chronicle} {c : Calls α}
    (h : Observes chronicler (breakers threshold α) anyObserved { clock := t₀ } g c) :
    (c.shared.breaker.stored = .closed →
      c.shared.breaker.failureCount.getD 0 = g.failures ∧ (g.failures : ℤ) < threshold) ∧
    (c.shared.breaker.stored = .open ∨ c.shared.breaker.stored = .halfOpen →
      c.shared.breaker.lastFailureAt.isSome = true) ∧
    (∀ i < c.size, ∃ (cb : CircuitBreaker) (fn p : Program α), cb.failureThreshold = threshold ∧
      (cb.call fn).Executes (g.awaited i) p ∧ ∀ q, c.pool i = some q → q = p) ∧
    ∀ i cb, ReadsOpen (g.awaited i) → Invokes cb (g.awaited i) → i ∈ g.moved := by
  have hcounts := counts hpos h
  refine ⟨fun hclosed => ⟨hcounts.count hclosed, hcounts.few hclosed⟩, fun hstate => ?_,
    fun i hi => ?_, fun i cb hopen hinvokes => ?_⟩
  · refine hcounts.dated fun hclosed => ?_
    rcases hstate with hstate | hstate <;> rw [hclosed] at hstate <;> cases hstate
  · obtain ⟨_, p, ⟨cb, fn, hthreshold, -, rfl⟩, hexec, hrest⟩ := h.executes chronicler_logs i hi
    exact ⟨cb, fn, p, hthreshold, hexec, hrest⟩
  · obtain ⟨ttl, hclaims⟩ := claims_of_invokes hopen hinvokes
    exact moved_of_claims h hclaims

/-- A run of calls through one circuit breaker is one of calls through any that have its
threshold. -/
theorem observes_breakers {Record : Type} {O : Observer Op Op.Out Exc Circuit Visit Record}
    {ok : Record → World Circuit Visit → CallEvent → Prop} {cb : CircuitBreaker} {g : Record}
    {c : Calls α} (h : Observes O (circuit cb α) ok { clock := t₀ } g c) :
    Observes O (breakers cb.failureThreshold α) ok { clock := t₀ } g c := by
  refine h.widen rfl fun hs => ?_
  cases hs with
  | spawn hstart =>
      obtain ⟨fn, hfn, rfl⟩ := hstart
      exact .spawn ⟨cb, fn, rfl, hfn, rfl⟩
  | call hp hr => exact .call hp hr
  | stop hp => exact .stop hp
  | env he => exact .env he

/-- Three failures open the circuit, a probe closes it again, and two more failures are counted. -/
theorem counts_consecutive_failures_probe :
    ∃ (g : Chronicle) (c : Calls String),
      Observes chronicler (breakers 3 String) anyObserved { clock := 0 } g c ∧
      c.shared.breaker.stored = .closed ∧ g.failures = 2 ∧ g.moved = [3] ∧
      c.shared.breaker.failureCount.getD 0 = g.failures ∧ (g.failures : ℤ) < 3 := by
  obtain ⟨g, c, -, -, hrun, -, hP⟩ := observed_of_played chronicler {} 0 anyObserved
    (.env (.wait 1))
    (P := fun g c _ _ => decide (c.shared.breaker.stored = .closed ∧ g.failures = 2 ∧
      g.moved = [3]))
    (show (observe chronicler _ _ _ _ (rejected 0 ++ rejected 1 ++ rejected 2 ++
      [.env (.wait 30000000)] ++ approaches 3 ++ [.call 3 .proceed, .call 3 .proceed,
        .call 3 .proceed] ++ rejected 4 ++ rejected 5)).any _ = true by decide +kernel)
  obtain ⟨hclosed, hfailures, hmoved⟩ := of_decide_eq_true hP
  have hcounts := (counts_consecutive_failures (by decide) (observes_breakers hrun)).1 hclosed
  exact ⟨g, c, observes_breakers hrun, hclosed, hfailures, hmoved, hcounts⟩

end MiniWallet

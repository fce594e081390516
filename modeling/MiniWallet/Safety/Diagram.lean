import MiniWallet.Services.Circuit

/-!
# The circuit breaker and its diagram

The circuit goes from closed to open on a failure, from open to half-open by a probe claim after the
cooldown, and from half-open to closed or back to open on what the probe reports. A report carries
no identity, so a slow call reports into whatever state the circuit is in by then.

An observer keeps track of the probe claims: whose claim the probe key stands for, and until when
each call holds a claim that it made while the circuit was half-open.

* `Permitted`: the changes of state in the diagram.
* `InTime`: the condition on steps, that a call which does not hold a claim of its own reports no
  success unless the circuit is closed and no failure while it is half-open, and that no failure
  restarts the cooldown between a call's check and its claim.
* `circuit_follows_diagram`: a run follows the diagram as long as its steps meet the condition, and
  no longer.
* `circuit_leaves_diagram`: a call that entered while the circuit was closed closes it again after
  it has opened.
-/

namespace MiniWallet

open Process

variable {cb : CircuitBreaker} {α : Type} {t₀ : Time}

/-! ## Probe claims -/

/-- What the observer knows about the probe claims. -/
structure Watch where
  /-- The call whose claim the probe key stands for. -/
  holder : Option ℕ := none
  /-- When the claim of each call expires, if it has made one on a half-open circuit and has not
  reported. -/
  claims : ℕ → Option Time := fun _ => none

namespace Watch

/-- The call has a claim of its own that has not expired. -/
def Probes (g : Watch) (i : ℕ) (clock : Time) : Prop := ∃ t ∈ g.claims i, clock < t

/-- The call holds the current probe claim: the probe key exists, and it is from this call. -/
def Holds (g : Watch) (i : ℕ) (s : Circuit) : Prop :=
  g.holder = some i ∧ s.breaker.probing s.clock = true

/-- The claims after a command of call `i`. -/
def after (g : Watch) (i : ℕ) (s : Circuit) : BreakerCommand → Watch
  | .claimProbe ttl =>
      if s.breaker.claimable s.clock then
        { holder := some i
          claims := Function.update g.claims i (some (s.clock + ttl * 1000000)) }
      else g
  | .setProbe ttl =>
      if s.breaker.probing s.clock then g
      else if s.breaker.state = some .halfOpen then
        { holder := some i
          claims := Function.update g.claims i (some (s.clock + ttl * 1000000)) }
      -- the state has changed since the call read it, and the key is set all the same
      else { g with holder := some i }
  | .recordSuccess => { holder := none, claims := Function.update g.claims i none }
  | .recordFailure _ _ =>
      -- a failure in HALF_OPEN deletes the key, whoever reports it
      { holder := if s.breaker.state = some .halfOpen then none else g.holder
        claims := Function.update g.claims i none }
  | .getState | .getLastFailureAt | .probeExists => g

end Watch

/-- The observer of the probe claims. -/
def watcher : Observer Op Op.Out Exc Circuit Visit Watch where
  start := {}
  next
    | w, .call i (.breaker c) (.ok _), g => g.after i w.shared c
    | _, _, g => g

/-- `CircuitRun cb t₀ ok g c`: calls through the circuit breaker get from empty keys at time `t₀` to
`c`, by steps that all satisfy `ok`, and the observer then knows `g`. -/
abbrev CircuitRun (cb : CircuitBreaker) (t₀ : Time)
    (ok : Watch → World Circuit Visit → CallEvent → Prop) (g : Watch) (c : Calls α) : Prop :=
  Observes watcher (circuit cb α) ok { clock := t₀ } g c

/-! ## The diagram -/

/-- The changes of state that command `c` of call `i` may make. -/
inductive Permitted (cb : CircuitBreaker) (g : Watch) (s : Circuit) (i : ℕ) :
    BreakerCommand → CircuitState → CircuitState → Prop
  | stay {c : BreakerCommand} {state : CircuitState} : Permitted cb g s i c state state
  /-- A recorded failure opens the circuit. -/
  | trip {threshold : ℤ} {now : Time} :
      Permitted cb g s i (.recordFailure threshold now) .closed .open
  /-- A probe claim after the cooldown. -/
  | probe {ttl : ℤ} : s.CooledDown cb → Permitted cb g s i (.claimProbe ttl) .open .halfOpen
  /-- The probe succeeds. -/
  | heal : g.Holds i s → Permitted cb g s i .recordSuccess .halfOpen .closed
  /-- The probe fails. -/
  | reopen {threshold : ℤ} {now : Time} : g.Holds i s →
      Permitted cb g s i (.recordFailure threshold now) .halfOpen .open

/-- The step from `s` to `s'` follows the diagram. -/
def FollowsDiagram (cb : CircuitBreaker) (g : Watch) (s s' : Circuit) : CallEvent → Prop
  | .call i (.breaker c) _ => Permitted cb g s i c s.breaker.stored s'.breaker.stored
  | _ => s'.breaker.stored = s.breaker.stored

/-! ## The condition -/

/-- The command of call `i`, which has read `σ`, comes in time. -/
def Timely (cb : CircuitBreaker) (g : Watch) (s : Circuit) (σ : Visit) (i : ℕ) :
    BreakerCommand → Prop
  | .recordSuccess => s.breaker.stored = .closed ∨ g.Probes i s.clock
  | .recordFailure _ _ => s.breaker.stored ≠ .halfOpen ∨ g.Probes i s.clock
  | .claimProbe _ => s.breaker.claimable s.clock = true →
      σ.lastFailure = some s.breaker.lastFailureAt ∨ s.CooledDown cb
  | _ => True

/-- A call that does not hold a claim of its own reports no success unless the circuit is closed,
and no failure while it is half-open; and when a call claims the probe slot, no failure has been
recorded since it read the last one, or the cooldown is over for that one too. -/
def InTime (cb : CircuitBreaker) (g : Watch) (w : World Circuit Visit) : CallEvent → Prop
  | .call i (.breaker c) (.ok _) => Timely cb g w.shared (w.sess i) i c
  | _ => True

/-! ## The claims and the keys -/

/-- What the observer knows agrees with the keys. -/
structure Watched (g : Watch) (s : Circuit) : Prop where
  /-- A claim that has not expired is the current one, and the circuit is half-open. -/
  current : ∀ i t, g.claims i = some t → s.clock < t →
    s.breaker.state = some .halfOpen ∧ g.holder = some i ∧ s.breaker.probeActive = some t
  /-- The probe key of a half-open circuit stands for a claim. -/
  claimed : s.breaker.state = some .halfOpen → s.breaker.probing s.clock = true →
    ∀ i, g.holder = some i → g.claims i = s.breaker.probeActive

/-- A probe key that exists later exists now. -/
theorem Breaker.probing_mono {b : Breaker} {clock clock' : Time} (hle : clock ≤ clock')
    (h : b.probing clock' = true) : b.probing clock = true := by
  unfold probing at h ⊢
  split at h
  · next expiry hactive =>
      have hlt := of_decide_eq_true h
      exact decide_eq_true (lt_of_le_of_lt hle hlt)
  · cases h

namespace Watched

variable {g : Watch} {s : Circuit} {i : ℕ} {σ : Visit}

/-- Nothing is claimed at first. -/
theorem initial (t₀ : Time) : Watched {} { clock := t₀ } where
  current := fun _ _ ht => nomatch ht
  claimed := fun hstate => nomatch hstate

/-- Time takes nothing away but claims that expire. -/
theorem wait (h : Watched g s) {clock : Time} (hle : s.clock ≤ clock) :
    Watched g { s with clock := clock } where
  current := fun i t ht hlt => h.current i t ht (lt_of_le_of_lt hle hlt)
  claimed := fun hstate hprobing => h.claimed hstate (Breaker.probing_mono hle hprobing)

/-- While a claim has not expired, the probe key exists. -/
theorem probing (h : Watched g s) (hi : g.Probes i s.clock) :
    s.breaker.probing s.clock = true := by
  obtain ⟨t, ht, hlt⟩ := hi
  obtain ⟨-, -, hactive⟩ := h.current i t ht hlt
  rw [Breaker.probing, hactive]
  exact decide_eq_true hlt

/-- While a claim has not expired, the circuit is half-open. -/
theorem halfOpen (h : Watched g s) (hi : g.Probes i s.clock) :
    s.breaker.state = some .halfOpen := by
  obtain ⟨t, ht, hlt⟩ := hi
  exact (h.current i t ht hlt).1

/-- Only one call has a claim that has not expired. -/
theorem unique (h : Watched g s) {j : ℕ} (hi : g.Probes i s.clock) (hj : g.Probes j s.clock) :
    i = j := by
  obtain ⟨t, ht, hlt⟩ := hi
  obtain ⟨t', ht', hlt'⟩ := hj
  have hholder := (h.current i t ht hlt).2.1
  rw [(h.current j t' ht' hlt').2.1] at hholder
  exact (Option.some.inj hholder).symm

/-- On a half-open circuit, the call that holds the probe claim is the one whose claim has not
expired. -/
theorem holds_iff (h : Watched g s) (hstate : s.breaker.state = some .halfOpen) :
    g.Holds i s ↔ g.Probes i s.clock := by
  constructor
  · rintro ⟨hholder, hprobing⟩
    have hclaim := h.claimed hstate hprobing i hholder
    rw [Breaker.probing] at hprobing
    split at hprobing
    · next expiry hactive =>
        rw [hactive] at hclaim
        exact ⟨expiry, hclaim, of_decide_eq_true hprobing⟩
    · cases hprobing
  · intro hi
    obtain ⟨t, ht, hlt⟩ := id hi
    exact ⟨(h.current i t ht hlt).2.1, h.probing hi⟩

/-- A new claim, made when there was no other one. -/
theorem claim {b : Breaker} {expiry : Time} (hnone : ∀ j, ¬ g.Probes j s.clock)
    (hstate : b.state = some .halfOpen) (hactive : b.probeActive = some expiry) :
    Watched ⟨some i, Function.update g.claims i (some expiry)⟩ { s with breaker := b } where
  current := by
    intro j t ht hlt
    -- only the new claim is one that has not expired
    by_cases hj : j = i
    · subst hj
      dsimp only at ht
      rw [Function.update_self] at ht
      cases ht
      exact ⟨hstate, rfl, hactive⟩
    · dsimp only at ht
      rw [Function.update_of_ne hj] at ht
      exact absurd ⟨t, ht, hlt⟩ (hnone j)
  claimed := by
    intro _ _ j hj
    cases hj
    dsimp only
    rw [Function.update_self, hactive]

/-- A report, made when no other call has a claim, that takes the circuit out of the half-open
state. -/
theorem report {b : Breaker} {holder : Option ℕ}
    (hothers : ∀ j, j ≠ i → ¬ g.Probes j s.clock) (hstate : b.state ≠ some .halfOpen) :
    Watched ⟨holder, Function.update g.claims i none⟩ { s with breaker := b } where
  current := by
    intro j t ht hlt
    dsimp only at ht
    by_cases hj : j = i
    · subst hj
      rw [Function.update_self] at ht
      cases ht
    · rw [Function.update_of_ne hj] at ht
      exact absurd ⟨t, ht, hlt⟩ (hothers j hj)
  claimed := fun hhalf => absurd hhalf hstate

/-- A command that comes in time keeps the claims in agreement with the keys. -/
theorem command (h : Watched g s) {c : BreakerCommand} (htimely : Timely cb g s σ i c) :
    Watched (g.after i s c) { s with breaker := c.effect s.breaker s.clock } := by
  -- the state that is read is the one that is stored
  have hstored : s.breaker.state = some .halfOpen → s.breaker.stored = .halfOpen := by
    intro hstate
    rw [Breaker.stored, hstate]
    rfl
  cases c with
  | getState | getLastFailureAt | probeExists => exact h
  -- the claim succeeds only while nobody holds the probe
  | claimProbe ttl =>
      simp only [Watch.after, BreakerCommand.effect]
      split
      · next hclaimable =>
          have hclosed := (Breaker.claimable_iff.mp hclaimable).2
          refine claim (fun j hj => ?_) rfl rfl
          rw [h.probing hj] at hclosed
          cases hclosed
      · exact h
  | setProbe ttl =>
      simp only [Watch.after, BreakerCommand.effect]
      split
      · exact h
      · -- the probe was not active, so nobody holds it
        next hprobing =>
          have hnone : ∀ j, ¬ g.Probes j s.clock := fun j hj => hprobing (h.probing hj)
          split
          · next hstate => exact claim hnone hstate rfl
          · next hstate =>
              exact ⟨fun j t ht hlt => absurd ⟨t, ht, hlt⟩ (hnone j),
                fun hhalf => absurd hhalf hstate⟩
  -- in time: the circuit is closed, or the call that reports holds the probe
  | recordSuccess =>
      refine report (fun j hj hprobes => ?_) (by simp [BreakerCommand.effect])
      rcases htimely with hclosed | hi
      · rw [hstored (h.halfOpen hprobes)] at hclosed
        cases hclosed
      · exact hj (h.unique hprobes hi)
  | recordFailure threshold now =>
      refine report (fun j hj hprobes => ?_) ?_
      · rcases htimely with hstate | hi
        · exact hstate (hstored (h.halfOpen hprobes))
        · exact hj (h.unique hprobes hi)
      · -- the circuit opens, or was not half-open to begin with
        simp only [BreakerCommand.effect]
        split
        · simp
        · next hstate =>
            split
            · simp
            · exact hstate

end Watched

/-- In every run whose steps come in time, what the observer knows agrees with the keys. -/
theorem watched {g : Watch} {c : Calls α} (h : CircuitRun cb t₀ (InTime cb) g c) :
    Watched g c.shared := by
  refine h.invariant (checks_abides cb α _) (I := fun g w => Watched g w.shared) ?_
  refine { init := .initial t₀, spawn := fun hI => hI, call := ?_, stop := fun hI => hI, env := ?_ }
  · intro g c i o r hcall hok hI
    cases o with
    | breaker command =>
        cases r with
        | ok reply => exact hI.command hok
        | error e => exact hI
    | _ => exact hI
  · rintro g w _ hI ⟨clock, hle, rfl⟩
    exact hI.wait hle

/-! ## Every step -/

/-- A cooldown that was checked is over, if no failure has been recorded since. -/
theorem cooledDown_of_checked {s : Circuit} {σ : Visit} (hchecked : σ.Checked cb)
    (hpast : ∀ t ∈ σ.clockRead, t ≤ s.clock)
    (hsame : σ.lastFailure = some s.breaker.lastFailureAt) :
    s.CooledDown cb := by
  obtain ⟨read, hread, hover⟩ := hchecked
  rw [hsame] at hread
  cases hread
  intro t ht
  obtain ⟨at_, hat, hle⟩ := hover t ht
  exact hle.trans (sub_le_sub_right (hpast at_ hat) t)

section Permitted

variable {g : Watch} {s : Circuit} {σ : Visit} {i : ℕ}

/-- A command that does not change the state follows the diagram. -/
theorem permitted_of_eq {c : BreakerCommand} {state state' : CircuitState} (h : state' = state) :
    Permitted cb g s i c state state' := h ▸ .stay

/-- A claim follows the diagram exactly if it comes in time. -/
theorem permitted_claimProbe {ttl : ℤ} (hchecked : σ.Checked cb)
    (hpast : ∀ t ∈ σ.clockRead, t ≤ s.clock) :
    Permitted cb g s i (.claimProbe ttl) s.breaker.stored
        ((BreakerCommand.claimProbe ttl).effect s.breaker s.clock).stored ↔
      Timely cb g s σ i (.claimProbe ttl) := by
  -- the script answers `true`: the circuit goes from OPEN to HALF_OPEN
  by_cases hclaimable : s.breaker.claimable s.clock = true
  · have hopen : s.breaker.stored = .open := by
      rw [Breaker.stored, (Breaker.claimable_iff.mp hclaimable).1]
      rfl
    have hhalf : ((BreakerCommand.claimProbe ttl).effect s.breaker s.clock).stored =
        .halfOpen := by
      rw [BreakerCommand.effect, if_pos hclaimable]
      rfl
    rw [hopen, hhalf]
    constructor
    · -- the diagram asks for the cooldown
      rintro (_ | _ | hcool) _
      exact .inr hcool
    · intro htimely
      rcases htimely hclaimable with hsame | hcool
      · exact .probe (cooledDown_of_checked hchecked hpast hsame)
      · exact .probe hcool
  · -- it answers `false`: nothing changes
    refine iff_of_true (permitted_of_eq ?_) fun h => absurd h hclaimable
    rw [BreakerCommand.effect, if_neg hclaimable]

/-- The report of a success follows the diagram exactly if it comes in time. -/
theorem permitted_recordSuccess (h : Watched g s) :
    Permitted cb g s i .recordSuccess s.breaker.stored
        (BreakerCommand.recordSuccess.effect s.breaker s.clock).stored ↔
      Timely cb g s σ i .recordSuccess := by
  have hclosed : (BreakerCommand.recordSuccess.effect s.breaker s.clock).stored = .closed := rfl
  rw [hclosed, Timely]
  cases hstored : s.breaker.stored with
  -- nothing changes
  | closed => exact iff_of_true .stay (.inl rfl)
  -- there is no way from OPEN to CLOSED in the diagram
  | «open» =>
      refine iff_of_false (fun hpermitted => nomatch hpermitted) ?_
      rintro (hstate | hprobes)
      · cases hstate
      · have hhalf := Breaker.stored_halfOpen.mpr (h.halfOpen hprobes)
        rw [hstored] at hhalf
        cases hhalf
  -- the report has to come from the call that holds the probe
  | halfOpen =>
      have hholds := h.holds_iff (i := i) (Breaker.stored_halfOpen.mp hstored)
      constructor
      · rintro (_ | _ | _ | hi)
        exact .inr (hholds.mp hi)
      · rintro (hstate | hprobes)
        · cases hstate
        · exact .heal (hholds.mpr hprobes)

/-- The report of a failure follows the diagram exactly if it comes in time. -/
theorem permitted_recordFailure {threshold : ℤ} {now : Time} (h : Watched g s) :
    Permitted cb g s i (.recordFailure threshold now) s.breaker.stored
        ((BreakerCommand.recordFailure threshold now).effect s.breaker s.clock).stored ↔
      Timely cb g s σ i (.recordFailure threshold now) := by
  by_cases hhalf : s.breaker.state = some .halfOpen
  · have hopen : ((BreakerCommand.recordFailure threshold now).effect s.breaker s.clock).stored =
        .open := by
      simp [BreakerCommand.effect, hhalf, Breaker.stored]
    have hholds := h.holds_iff (i := i) hhalf
    rw [hopen, Timely, Breaker.stored_halfOpen.mpr hhalf]
    constructor
    · rintro (_ | _ | _ | _ | hi)
      exact .inr (hholds.mp hi)
    · rintro (hstate | hprobes)
      · exact absurd rfl hstate
      · exact .reopen (hholds.mpr hprobes)
  · refine iff_of_true ?_ (.inl fun hstored => hhalf (Breaker.stored_halfOpen.mp hstored))
    simp only [BreakerCommand.effect, if_neg hhalf]
    split
    · -- the failure opens the circuit, unless it is open already
      have hopen : ({ s.breaker with
          state := some CircuitState.open
          failureCount := some (s.breaker.failureCount.getD 0 + 1)
          lastFailureAt := some now } : Breaker).stored = .open := rfl
      rw [hopen]
      cases hstored : s.breaker.stored with
      | closed => exact .trip
      | «open» => exact .stay
      | halfOpen => exact absurd (Breaker.stored_halfOpen.mp hstored) hhalf
    · exact .stay

/-- A command follows the diagram exactly if it comes in time. -/
theorem permitted_iff {c : BreakerCommand} (h : Watched g s)
    (hpast : ∀ t ∈ σ.clockRead, t ≤ s.clock) (hguard : (checks cb).guard (.breaker c) σ) :
    Permitted cb g s i c s.breaker.stored (c.effect s.breaker s.clock).stored ↔
      Timely cb g s σ i c := by
  cases c with
  | getState | getLastFailureAt | probeExists => exact iff_of_true .stay trivial
  | claimProbe ttl => exact permitted_claimProbe hguard.2 hpast
  | setProbe ttl =>
      refine iff_of_true (permitted_of_eq ?_) trivial
      rw [BreakerCommand.effect]
      split <;> rfl
  | recordSuccess => exact permitted_recordSuccess h
  | recordFailure threshold now => exact permitted_recordFailure h

end Permitted

/-- In every run whose steps have all come in time, the next step follows the diagram exactly if it
comes in time too. So a run follows the diagram from its first step to its last exactly if all of
its steps come in time. -/
theorem circuit_follows_diagram {g : Watch} {c c' : Calls α} {l : CallEvent}
    (h : CircuitRun cb t₀ (InTime cb) g c) (hs : (circuit cb α).Step c l c') :
    FollowsDiagram cb g c.shared c'.shared l ↔ InTime cb g c.toWorld l := by
  have hwatched := watched h
  cases hs with
  | spawn _ | stop _ => exact iff_of_true rfl trivial
  | env he =>
      obtain ⟨clock, -, rfl⟩ := he
      exact iff_of_true rfl trivial
  | @call i o next r hp hr =>
      cases o with
      | breaker command =>
          have hcall := h.run.call (checks_abides cb α _) hp hr trivial
          cases r with
          | ok reply => exact permitted_iff hwatched (clockRead_past h.run i) hcall.guard
          | error e => exact iff_of_true .stay trivial
      | _ => exact iff_of_true rfl trivial

/-- No step that follows the diagram closes an open circuit. -/
theorem not_followsDiagram {g : Watch} {s s' : Circuit} (l : CallEvent)
    (hopen : s.breaker.stored = .open) (hclosed : s'.breaker.stored = .closed) :
    ¬ FollowsDiagram cb g s s' l := by
  intro hfollows
  unfold FollowsDiagram at hfollows
  rw [hopen, hclosed] at hfollows
  split at hfollows <;> cases hfollows

/-! ## Explicit schedules -/

/-- Whether a command comes in time is decidable. -/
instance (g : Watch) (s : Circuit) (σ : Visit) (i : ℕ) (c : BreakerCommand) :
    Decidable (Timely cb g s σ i c) :=
  match c with
  | .recordSuccess => inferInstanceAs (Decidable (_ ∨ ∃ t ∈ g.claims i, s.clock < t))
  | .recordFailure _ _ => inferInstanceAs (Decidable (_ ≠ _ ∨ ∃ t ∈ g.claims i, s.clock < t))
  | .claimProbe _ => inferInstanceAs (Decidable (_ = true → _ = _ ∨
      ∀ t ∈ s.breaker.lastFailureAt, cb.cooldownSeconds * 1000000 ≤ s.clock - t))
  | .getState | .getLastFailureAt | .probeExists | .setProbe _ => inferInstanceAs (Decidable True)

/-- Whether a step comes in time is decidable. -/
instance (g : Watch) (w : World Circuit Visit) (l : CallEvent) : Decidable (InTime cb g w l) :=
  match l with
  | .call i (.breaker c) (.ok _) =>
      inferInstanceAs (Decidable (Timely cb g w.shared (w.sess i) i c))
  | .call _ (.breaker _) (.error _) | .call _ .now _ | .call _ .uuid4 _ | .call _ (.cacheGet _) _
  | .call _ (.cacheSet _ _) _ | .call _ (.select _) _ | .call _ (.lockAccount _) _
  | .call _ (.lockWithdrawal _) _ | .call _ (.claimStuck _ _) _ | .call _ (.write _) _
  | .call _ .commit _ | .call _ .rollback _ | .call _ (.sendWithdrawal _ _ _) _
  | .call _ (.queryStatus _) _ | .spawn | .stop _ | .env => inferInstanceAs (Decidable True)

/-- Three failures open the circuit, and after the cooldown a probe closes it again. -/
theorem circuit_follows_diagram_probe :
    ∃ (g : Watch) (c : Calls String) (l : CallEvent) (c' : Calls String),
      CircuitRun {} 0 (InTime {}) g c ∧ (circuit {} String).Step c l c' ∧
      c.shared.breaker.stored = .halfOpen ∧ c'.shared.breaker.stored = .closed ∧
      FollowsDiagram {} g c.shared c'.shared l := by
  obtain ⟨g, c, l, c', hrun, hstep, hP⟩ := observed_of_played watcher {} 0 (InTime {})
    (.call 3 .proceed)
    (P := fun g c l c' => decide (c.shared.breaker.stored = .halfOpen ∧
      c'.shared.breaker.stored = .closed ∧ InTime {} g c.toWorld l))
    (show (observe watcher _ _ _ _ (rejected 0 ++ rejected 1 ++ rejected 2 ++
      [.env (.wait 30000000), .spawn .enter, .call 3 .proceed, .call 3 .proceed, .call 3 .proceed,
        .call 3 .proceed, .call 3 .proceed])).any _ = true by decide +kernel)
  obtain ⟨hhalf, hclosed, htimely⟩ := of_decide_eq_true hP
  exact ⟨g, c, l, c', hrun, hstep, hhalf, hclosed, (circuit_follows_diagram hrun hstep).mpr htimely⟩

/-- Without the condition, a call that has entered while the circuit was closed closes it after
three others have opened it. -/
theorem circuit_leaves_diagram :
    ¬ ∀ (g : Watch) (c : Calls String) (l : CallEvent) (c' : Calls String),
      CircuitRun {} 0 anyObserved g c → (circuit {} String).Step c l c' →
      FollowsDiagram {} g c.shared c'.shared l := by
  intro hfollows
  obtain ⟨g, c, l, c', hrun, hstep, hP⟩ := observed_of_played watcher {} 0 anyObserved
    (.call 0 .proceed)
    (P := fun _ c _ c' => decide (c.shared.breaker.stored = .open ∧
      c'.shared.breaker.stored = .closed))
    (show (observe watcher _ _ _ _ ([.spawn .enter, .call 0 .proceed] ++ rejected 1 ++ rejected 2 ++
      rejected 3 ++ [.call 0 .proceed])).any _ = true by decide +kernel)
  obtain ⟨hopen, hclosed⟩ := of_decide_eq_true hP
  exact not_followsDiagram l hopen hclosed (hfollows g c l c' hrun hstep)

end MiniWallet

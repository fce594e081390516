import MiniWallet.Services.Alone

/-!
# Admission to the circuit

The withdrawal endpoint asks `is_call_allowed` before it debits the user, and the payment then goes
through `call`, which decides again. The two decisions are written separately. They differ on an
open circuit whose cooldown is over while the probe key exists: the check does not look at the key,
and the script that claims the slot does. A call leaves such a key behind if the circuit opens
between its `EXISTS` and its `SET NX`.

* `agrees_iff`: the states in which the check and a call decide alike.
* `preflight_agrees`: they decide alike in every state of a run in which the key is set by `SET NX`
  only while the circuit is half-open.
* `preflight_disagrees`: a run that leaves a key behind.
* `breaker_heals`: whatever has happened, a call after the cooldown and the lifetime of the probe
  key is admitted.
-/

namespace MiniWallet

open Process

variable {cb : CircuitBreaker} {α : Type} {t₀ : Time}

/-! ## Both decisions in one state -/

/-- In this state, `is_call_allowed` returns true exactly if a call invokes its function. -/
def Agrees (cb : CircuitBreaker) (s : Circuit) : Prop :=
  ∀ (α : Type) (rail : Rail) (o : Op) (next : Except Exc o.Out → Program α), o.isOwn = false →
    ((alone rail cb.isCallAllowed s).result = .ok true ↔
      o ∈ (alone rail (cb.call (.call o next)) s).awaited)

/-- The circuit is open, its cooldown is over, and yet there is a probe key. -/
def Circuit.Leftover (cb : CircuitBreaker) (s : Circuit) : Prop :=
  s.breaker.stored = .open ∧ s.CooledDown cb ∧ s.breaker.probing s.clock = true

/-- Whether an open circuit has a probe key after its cooldown is decidable. -/
instance (cb : CircuitBreaker) (s : Circuit) : Decidable (s.Leftover cb) :=
  inferInstanceAs (Decidable (_ ∧ _ ∧ _))

/-- What the check allows is admitted unless a probe key is left behind. -/
theorem Circuit.allows_iff_admits {s : Circuit} :
    (s.Allows cb ↔ s.Admits cb) ↔ ¬ s.Leftover cb := by
  unfold Circuit.Allows Circuit.Admits Circuit.Leftover
  cases s.breaker.stored with
  | closed | halfOpen => simp
  | «open» => cases s.breaker.probing s.clock <;> simp

/-- The check and a call decide alike exactly if no probe key is left behind. -/
theorem agrees_iff {s : Circuit} : Agrees cb s ↔ ¬ s.Leftover cb := by
  rw [← Circuit.allows_iff_admits]
  constructor
  · intro h
    -- any function that starts with an operation of its own tells the two decisions apart
    have hprobe := h Unit ⟨fun _ => 0, fun _ => .error .redisError⟩ .uuid4 (fun _ => .pure ()) rfl
    rwa [alone_isCallAllowed, mem_awaited_call rfl] at hprobe
  · intro h α rail o next ho
    rw [alone_isCallAllowed, mem_awaited_call ho]
    exact h

/-! ## Both decisions in every state of a run -/

/-- The condition on steps: the probe key is set by `SET NX` only while the circuit is half-open. -/
def SetsHalfOpen (w : World Circuit Visit) : CallEvent → Prop :=
  OnCommand fun _ c =>
    match c with
    | .setProbe _ =>
        w.shared.breaker.probing w.shared.clock = true ∨ w.shared.breaker.state = some .halfOpen
    | _ => True

/-- If there is a probe key, the circuit is half-open. -/
def Breaker.Tidy (b : Breaker) : Prop := b.probeActive ≠ none → b.state = some .halfOpen

/-- A command keeps the keys tidy if it sets the probe key only while the circuit is half-open. -/
theorem Breaker.Tidy.effect {b : Breaker} {clock : Time} {c : BreakerCommand} (h : b.Tidy)
    (hset : ∀ ttl, c = .setProbe ttl → b.probing clock = true ∨ b.state = some .halfOpen) :
    (c.effect b clock).Tidy := by
  intro hprobe
  cases c with
  | getState | getLastFailureAt | probeExists => exact h hprobe
  | claimProbe ttl =>
      simp only [BreakerCommand.effect] at hprobe ⊢
      by_cases hclaim : b.claimable clock = true
      · rw [if_pos hclaim]
      · rw [if_neg hclaim] at hprobe ⊢
        exact h hprobe
  | setProbe ttl =>
      simp only [BreakerCommand.effect] at hprobe ⊢
      by_cases hprobing : b.probing clock = true
      · rw [if_pos hprobing] at hprobe ⊢
        exact h hprobe
      · rw [if_neg hprobing]
        exact (hset ttl rfl).resolve_left hprobing
  | recordSuccess => exact absurd rfl hprobe
  | recordFailure threshold now =>
      by_cases hhalf : b.state = some .halfOpen
      · rw [BreakerCommand.effect, if_pos hhalf] at hprobe
        exact absurd rfl hprobe
      · -- outside of a half-open circuit there is no key to be left behind
        refine absurd (h ?_) hhalf
        rw [BreakerCommand.effect, if_neg hhalf] at hprobe
        split at hprobe <;> exact hprobe

/-- The keys stay tidy under the condition. -/
theorem tidy {c : Calls α}
    (h : (circuit cb α).Run SetsHalfOpen ((circuit cb α).initial { clock := t₀ }) c) :
    c.shared.breaker.Tidy := by
  refine h.invariant (checks_abides cb α _) (I := fun w => w.shared.breaker.Tidy) ?_
  refine { init := ?_, spawn := fun _ hI => hI, call := ?_, stop := fun _ hI _ => hI, env := ?_ }
  · exact fun hprobe => absurd rfl hprobe
  · intro c i o r hcall hI
    have hallowed := hcall.allowed
    -- only the commands of the circuit change its keys
    cases o with
    | breaker command =>
        cases r with
        | error e => exact hI
        | ok reply =>
            refine hI.effect fun ttl hc => ?_
            subst hc
            exact hallowed
    | _ => exact hI
  · -- time changes no key
    rintro c _ - hI ⟨clock, -, rfl⟩
    exact hI

/-- In every state of a run in which the probe key is set by `SET NX` only while the circuit is
half-open, and at any time, the check and a call decide alike. -/
theorem preflight_agrees {c : Calls α}
    (h : (circuit cb α).Run SetsHalfOpen ((circuit cb α).initial { clock := t₀ }) c)
    (clock : Time) : Agrees cb { c.shared with clock := clock } := by
  refine agrees_iff.mpr fun ⟨hopen, _, hprobing⟩ => ?_
  have hprobe : c.shared.breaker.probeActive ≠ none := by
    intro hnone
    simp [Breaker.probing, hnone] at hprobing
  have hhalf := tidy h hprobe
  rw [Breaker.stored_open.mp hopen] at hhalf
  cases hhalf

/-- Whether a step sets the circuit half-open is decidable. -/
instance (w : World Circuit Visit) (l : CallEvent) : Decidable (SetsHalfOpen w l) :=
  @instDecidableOnCommand _ (fun _ c =>
    match c with
    | .setProbe _ => inferInstanceAs (Decidable (_ ∨ _))
    | .getState | .getLastFailureAt | .probeExists | .claimProbe _ | .recordSuccess
    | .recordFailure _ _ => inferInstanceAs (Decidable True)) l

/-- After three failures and the cooldown, a call claims the slot of the open circuit and stops.
When its key has expired, the next call finds the circuit half-open and the slot free. -/
def abandonedProbe : List (System.Move Cue) :=
  rejected 0 ++ rejected 1 ++ rejected 2 ++ [.env (.wait 30000000)] ++ approaches 3 ++
    [.call 3 .proceed, .stop 3, .env (.wait 60000000), .spawn .enter, .call 4 .proceed,
      .call 4 .proceed]

/-- The call that finds the slot free claims it. -/
theorem preflight_agrees_halfOpen :
    ∃ c : Calls String,
      (circuit {} String).Run SetsHalfOpen ((circuit {} String).initial { clock := 0 }) c ∧
      c.shared.breaker.stored = .halfOpen ∧ c.shared.breaker.probeActive = some 150000000 ∧
      Agrees {} { c.shared with clock := 149999999 } := by
  obtain ⟨c, hrun, hhalf, hprobe⟩ := circuitRun_of_played {} 0 SetsHalfOpen
    (P := fun s => s.breaker.stored = .halfOpen ∧ s.breaker.probeActive = some 150000000)
    (show (System.play _ _ _ (abandonedProbe ++ [.call 4 .proceed])).any _ = true by decide +kernel)
  exact ⟨c, hrun, hhalf, hprobe, preflight_agrees hrun 149999999⟩

/-- Without the condition, another call claims the free slot and fails, which opens the circuit, and
then the first call sets the key. When the cooldown is over, the check allows a call that is not
admitted. -/
theorem preflight_disagrees :
    ¬ ∀ c : Calls String,
      (circuit {} String).Run System.anyStep ((circuit {} String).initial { clock := 0 }) c →
      ∀ clock, Agrees {} { c.shared with clock := clock } := by
  intro hagrees
  obtain ⟨c, hrun, hleft⟩ := circuitRun_of_played {} 0 System.anyStep
    (P := fun s => s.Leftover {})
    (show (System.play _ _ _ (abandonedProbe ++ [.spawn .enter, .call 5 .proceed, .call 5 .proceed,
      .call 5 .proceed, .call 5 (.reject "TIMEOUT"), .call 5 .proceed, .call 5 .proceed,
      .call 4 .proceed, .env (.wait 30000000)])).any _ = true by decide +kernel)
  exact agrees_iff.mp (hagrees c hrun c.shared.clock) hleft

/-! ## The circuit heals -/

/-- The last failure lies in the past, and the probe key expires within its lifetime. -/
structure Circuit.Current (s : Circuit) : Prop where
  failure : ∀ t ∈ s.breaker.lastFailureAt, t ≤ s.clock
  probe : ∀ t ∈ s.breaker.probeActive, t ≤ s.clock + probeTtlSeconds * 1000000

namespace Circuit.Current

variable {s : Circuit}

/-- Time passes. -/
theorem wait (h : s.Current) {clock : Time} (hle : s.clock ≤ clock) :
    Current { s with clock := clock } where
  failure := fun t ht => (h.failure t ht).trans hle
  probe := fun t ht => (h.probe t ht).trans (add_le_add_left hle _)

/-- The commands of a call keep the keys current. -/
theorem effect (h : s.Current) {σ : Visit} {c : BreakerCommand}
    (hguard : (checks cb).guard (.breaker c) σ) (hread : ∀ t ∈ σ.clockRead, t ≤ s.clock) :
    Current { s with breaker := c.effect s.breaker s.clock } := by
  cases c with
  | getState | getLastFailureAt | probeExists => exact h
  | claimProbe ttl =>
      obtain rfl : ttl = probeTtlSeconds := hguard.1
      simp only [BreakerCommand.effect]
      split
      · refine ⟨h.failure, fun t ht => ?_⟩
        cases ht
        exact le_rfl
      · exact h
  | setProbe ttl =>
      obtain rfl : ttl = probeTtlSeconds := hguard
      simp only [BreakerCommand.effect]
      split
      · exact h
      · refine ⟨h.failure, fun t ht => ?_⟩
        cases ht
        exact le_rfl
  | recordSuccess => exact ⟨by rintro t ⟨⟩, by rintro t ⟨⟩⟩
  | recordFailure threshold now =>
      have hnow : now ≤ s.clock := hread now hguard.2
      simp only [BreakerCommand.effect]
      -- every branch of the script stores the time that the call has read
      split
      · refine ⟨fun t ht => ?_, by rintro t ⟨⟩⟩
        cases ht
        exact hnow
      · split
        all_goals
          refine ⟨fun t ht => ?_, h.probe⟩
          cases ht
          exact hnow

/-- When the cooldown and the lifetime of the probe key have passed, a call is admitted. -/
theorem admits (h : s.Current) {clock : Time}
    (hclock : s.clock + max cb.cooldownSeconds probeTtlSeconds * 1000000 ≤ clock) :
    Admits cb { s with clock := clock } := by
  have hcooldown := le_max_left cb.cooldownSeconds probeTtlSeconds
  have hlifetime := le_max_right cb.cooldownSeconds probeTtlSeconds
  -- the cooldown has passed
  have hcooled : CooledDown cb { s with clock := clock } := by
    intro t ht
    have hpast := h.failure t ht
    dsimp only
    linarith
  -- and so has the lifetime of the key
  have hprobing : s.breaker.probing clock = false := by
    rw [Breaker.probing]
    cases hactive : s.breaker.probeActive with
    | none => rfl
    | some t =>
        have hexpiry := h.probe t hactive
        exact decide_eq_false (by linarith)
  unfold Admits
  cases s.breaker.stored with
  | closed => trivial
  | «open» => exact ⟨hcooled, hprobing⟩
  | halfOpen => exact hprobing

end Circuit.Current

/-- The keys are current in every state that calls can reach, also if calls have stopped halfway. -/
theorem current {c : Calls α}
    (h : (circuit cb α).Run System.anyStep ((circuit cb α).initial { clock := t₀ }) c) :
    c.shared.Current := by
  refine h.invariant (checks_abides cb α _) (I := fun w => w.shared.Current) ?_
  refine { init := ?_, spawn := fun _ hI => hI, call := ?_, stop := fun _ hI _ => hI, env := ?_ }
  · exact ⟨fun t ht => (nomatch ht), fun t ht => (nomatch ht)⟩
  · intro c i o r hcall hI
    cases o with
    | breaker command =>
        cases r with
        | error e => exact hI
        | ok reply => exact hI.effect hcall.guard (clockRead_past hcall.run i)
    | _ => exact hI
  · rintro c _ - hI ⟨clock, hle, rfl⟩
    exact hI.wait hle

/-- In every state that calls can reach, a call that is made after the cooldown and the lifetime of
the probe key invokes its function, if nothing has happened in between. -/
theorem breaker_heals {c : Calls α}
    (h : (circuit cb α).Run System.anyStep ((circuit cb α).initial { clock := t₀ }) c)
    {clock : Time}
    (hclock : c.shared.clock + max cb.cooldownSeconds probeTtlSeconds * 1000000 ≤ clock)
    {β : Type} (rail : Rail) {o : Op} (next : Except Exc o.Out → Program β)
    (ho : o.isOwn = false) :
    o ∈ (alone rail (cb.call (.call o next)) { c.shared with clock := clock }).awaited :=
  (mem_awaited_call ho).mpr ((current h).admits hclock)

/-- A call has claimed the slot and has stopped; a minute later a payment goes through. -/
theorem breaker_heals_abandoned :
    ∃ c : Calls String,
      (circuit {} String).Run System.anyStep ((circuit {} String).initial { clock := 0 }) c ∧
      c.shared.breaker.probing c.shared.clock = true ∧
      Op.sendWithdrawal ⟨1⟩ ⟨false, 1, 0⟩ (.obj []) ∈
        (alone ⟨fun _ => 0, fun _ => .error .redisError⟩
          (CircuitBreaker.call {} (.call (.sendWithdrawal ⟨1⟩ ⟨false, 1, 0⟩ (.obj [])) fun _ =>
            (pure () : Program Unit)))
          { c.shared with clock := c.shared.clock + 60000000 }).awaited := by
  obtain ⟨c, hrun, hprobing⟩ := circuitRun_of_played {} 0 System.anyStep
    (P := fun s => s.breaker.probing s.clock = true)
    (show (System.play _ _ _ (rejected 0 ++ rejected 1 ++ rejected 2 ++ [.env (.wait 30000000)] ++
      approaches 3 ++ [.call 3 .proceed, .stop 3])).any _ = true by decide +kernel)
  exact ⟨c, hrun, hprobing, breaker_heals hrun le_rfl _ _ rfl⟩

end MiniWallet

import MiniWallet.Safety.Diagram

/-!
# One probe at a time

The probe slot is one key that expires by itself. A success of any call deletes it, and so does a
failure of any call on a half-open circuit, whoever has claimed it.

* `Slots`: which calls have claimed the slot and when, as an observer sees it.
* `Undisturbed`: the condition on steps, that no report deletes the key of another call.
* `probe_exclusive`: under the condition no call claims the slot while the claim of another one
  stands.
* `probe_shared`: without it a late failure makes room for a second probe.
-/

namespace MiniWallet

open Process

variable {cb : CircuitBreaker} {α : Type} {t₀ : Time}

/-! ## Claims -/

/-- The calls that have claimed the probe slot and have not reported, with the time of their
claim. -/
abbrev Slots := List (ℕ × Time)

/-- The command gives the probe slot to its caller. -/
def Circuit.Grants (s : Circuit) : BreakerCommand → Prop
  | .claimProbe _ => s.breaker.claimable s.clock = true
  | .setProbe _ => s.breaker.probing s.clock = false
  | _ => False

/-- Whether a command grants a probe is decidable. -/
instance (s : Circuit) (c : BreakerCommand) : Decidable (s.Grants c) :=
  match c with
  | .claimProbe _ => inferInstanceAs (Decidable (_ = true))
  | .setProbe _ => inferInstanceAs (Decidable (_ = false))
  | .getState | .getLastFailureAt | .probeExists | .recordSuccess | .recordFailure _ _ =>
      inferInstanceAs (Decidable False)

/-- The call reports its result. -/
def BreakerCommand.isReport : BreakerCommand → Bool
  | .recordSuccess | .recordFailure _ _ => true
  | _ => false

/-- The observer of the claims. -/
def slotKeeper : Observer Op Op.Out Exc Circuit Visit Slots where
  start := []
  next
    | w, .call i (.breaker c) (.ok _), g =>
        if w.shared.Grants c then (i, w.shared.clock) :: g
        else if c.isReport then g.filter (·.1 ≠ i)
        else g
    | _, _, g => g

/-- A claim made at time `t` stands until its time is over. -/
def Stands (clock t : Time) : Prop := clock < t + probeTtlSeconds * 1000000

/-- Whether a claim still stands is decidable. -/
instance (clock t : Time) : Decidable (Stands clock t) := inferInstanceAs (Decidable (_ < _))

/-- No call other than `i` has a claim that stands. -/
def Slots.NoOther (g : Slots) (i : ℕ) (clock : Time) : Prop :=
  ∀ p ∈ g, p.1 ≠ i → ¬ Stands clock p.2

/-- Whether no other call has a standing claim is decidable. -/
instance (g : Slots) (i : ℕ) (clock : Time) : Decidable (g.NoOther i clock) :=
  inferInstanceAs (Decidable (∀ p ∈ g, p.1 ≠ i → ¬ Stands clock p.2))

/-- If the step claims the probe slot, then no claim of another call stands. -/
def Exclusive (g : Slots) (w : World Circuit Visit) : CallEvent → Prop :=
  OnCommand fun i c => w.shared.Grants c → g.NoOther i w.shared.clock

/-! ## The condition -/

/-- The report of call `i` takes nobody's slot away. -/
def Circuit.Spares (s : Circuit) (g : Slots) (i : ℕ) : BreakerCommand → Prop
  | .recordSuccess => g.NoOther i s.clock
  | .recordFailure _ _ => s.breaker.state ≠ some .halfOpen ∨ g.NoOther i s.clock
  | _ => True

/-- Whether a command spares the probes of others is decidable. -/
instance (s : Circuit) (g : Slots) (i : ℕ) (c : BreakerCommand) : Decidable (s.Spares g i c) :=
  match c with
  | .recordSuccess => inferInstanceAs (Decidable (g.NoOther i s.clock))
  | .recordFailure _ _ => inferInstanceAs (Decidable (_ ≠ _ ∨ g.NoOther i s.clock))
  | .getState | .getLastFailureAt | .probeExists | .claimProbe _ | .setProbe _ =>
      inferInstanceAs (Decidable True)

/-- While the claim of a call stands, no other call records a success, and none records a failure on
the half-open circuit. -/
def Undisturbed (g : Slots) (w : World Circuit Visit) : CallEvent → Prop :=
  OnCommand fun i c => w.shared.Spares g i c

/-! ## The claims and the key -/

/-- The key of every claim that stands is there. -/
def Kept (g : Slots) (s : Circuit) : Prop :=
  ∀ p ∈ g, Stands s.clock p.2 → s.breaker.probeActive = some (p.2 + probeTtlSeconds * 1000000)

namespace Kept

variable {g : Slots} {s : Circuit} {i : ℕ}

/-- While a claim stands, the key exists. -/
theorem probing (h : Kept g s) {p : ℕ × Time} (hp : p ∈ g) (hstands : Stands s.clock p.2) :
    s.breaker.probing s.clock = true := by
  rw [Breaker.probing, h p hp hstands]
  exact decide_eq_true hstands

/-- The slot is granted only while no claim stands. -/
theorem not_stands (h : Kept g s) {c : BreakerCommand} (hgrants : s.Grants c) :
    ∀ p ∈ g, ¬ Stands s.clock p.2 := by
  intro p hp hstands
  have hprobing := h.probing hp hstands
  cases c with
  | claimProbe ttl =>
      rw [(Breaker.claimable_iff.mp hgrants).2] at hprobing
      cases hprobing
  | setProbe ttl =>
      have hfree : s.breaker.probing s.clock = false := hgrants
      rw [hfree] at hprobing
      cases hprobing
  | getState | getLastFailureAt | probeExists | recordSuccess | recordFailure threshold now =>
      exact hgrants.elim

/-- A claim that is granted stands for its time. -/
theorem grant (h : Kept g s) {c : BreakerCommand} (hgrants : s.Grants c)
    (hguard : (checks cb).guard (.breaker c) σ) :
    Kept ((i, s.clock) :: g) { s with breaker := c.effect s.breaker s.clock } := by
  intro p hp hstands
  rcases List.mem_cons.mp hp with rfl | hp
  · cases c with
    | claimProbe ttl =>
        have hclaimable : s.breaker.claimable s.clock = true := hgrants
        obtain ⟨rfl, -⟩ := hguard
        simp only [BreakerCommand.effect, if_pos hclaimable]
    | setProbe ttl =>
        have hfree : s.breaker.probing s.clock = false := hgrants
        obtain rfl := hguard
        simp [BreakerCommand.effect, hfree]
    | getState | getLastFailureAt | probeExists | recordSuccess | recordFailure threshold now =>
        exact hgrants.elim
  · exact absurd hstands (h.not_stands hgrants p hp)

/-- After a report that spares the others, the claims of the others have their key. -/
theorem report (h : Kept g s) {c : BreakerCommand} (hreport : c.isReport = true)
    (hspares : s.Spares g i c) :
    Kept (g.filter (·.1 ≠ i)) { s with breaker := c.effect s.breaker s.clock } := by
  intro p hp hstands
  obtain ⟨hp, hne⟩ := List.mem_filter.mp hp
  have hother : p.1 ≠ i := of_decide_eq_true hne
  cases c with
  | recordSuccess => exact absurd hstands (hspares p hp hother)
  | recordFailure threshold now =>
      rcases hspares with hstate | hnone
      · -- a failure that finds the circuit closed or open leaves the key alone
        have hactive := h p hp hstands
        simp only [BreakerCommand.effect, if_neg hstate]
        split <;> exact hactive
      · exact absurd hstands (hnone p hp hother)
  | getState | getLastFailureAt | probeExists | claimProbe ttl | setProbe ttl => cases hreport

/-- A command that neither is granted the slot nor reports leaves the keys alone. -/
theorem effect_other {c : BreakerCommand} (hgrants : ¬ s.Grants c) (hreport : ¬ c.isReport = true) :
    c.effect s.breaker s.clock = s.breaker := by
  cases c with
  | getState | getLastFailureAt | probeExists => rfl
  | claimProbe ttl => exact if_neg hgrants
  | setProbe ttl =>
      have hprobing : s.breaker.probing s.clock = true := by
        cases hfree : s.breaker.probing s.clock with
        | true => rfl
        | false => exact absurd hfree hgrants
      exact if_pos hprobing
  | recordSuccess | recordFailure threshold now => exact absurd rfl hreport

end Kept

/-- In every run in which no report deletes the key of another call, every claim that stands has its
key. -/
theorem kept {g : Slots} {c : Calls α}
    (h : Observes slotKeeper (circuit cb α) Undisturbed { clock := t₀ } g c) : Kept g c.shared := by
  refine h.invariant (checks_abides cb α _) (I := fun g w => Kept g w.shared) ?_
  refine { init := ?_, spawn := fun hI => hI, call := ?_, stop := fun hI => hI, env := ?_ }
  · exact fun p hp => nomatch hp
  · intro g c i o r hcall hok hI
    cases o with
    | breaker command =>
        cases r with
        | error e => exact hI
        | ok reply =>
            dsimp only [slotKeeper]
            -- the command grants the probe, so its key is set
            split
            · next hgrants => exact hI.grant hgrants hcall.guard
            · next hgrants =>
                split
                · -- the report of another call is what the condition excludes
                  next hreport => exact hI.report hreport hok
                · -- no other command touches the key
                  next hreport =>
                    have hsame := Kept.effect_other hgrants hreport
                    intro p hp hstands
                    have hactive := hI p hp hstands
                    rw [← hsame] at hactive
                    exact hactive
    | _ => exact hI
  · -- time passes, and claims expire no later than their keys
    rintro g w _ hI ⟨clock, hle, rfl⟩ p hp hstands
    exact hI p hp (lt_of_le_of_lt hle hstands)

/-- In every run in which no report deletes the key of another call, no call claims the probe slot
while the claim of another one stands. -/
theorem probe_exclusive {g : Slots} {c c' : Calls α} {l : CallEvent}
    (h : Observes slotKeeper (circuit cb α) Undisturbed { clock := t₀ } g c)
    (hs : (circuit cb α).Step c l c') : Exclusive g c.toWorld l := by
  cases hs with
  | spawn _ | stop _ | env _ => trivial
  | @call i o next r hp hr =>
      cases o with
      | breaker command =>
          cases r with
          | ok reply => exact fun hgrants p hp _ => (kept h).not_stands hgrants p hp
          | error e => trivial
      | _ => trivial

/-! ## Explicit schedules -/

/-- Whether a step disturbs no probe is decidable. -/
instance (g : Slots) (w : World Circuit Visit) (l : CallEvent) : Decidable (Undisturbed g w l) :=
  inferInstanceAs (Decidable (OnCommand _ l))

/-- Whether a step grants a probe to one call only is decidable. -/
instance (g : Slots) (w : World Circuit Visit) (l : CallEvent) : Decidable (Exclusive g w l) :=
  inferInstanceAs (Decidable (OnCommand _ l))

/-- A probe is rejected, and after the cooldown there is another one. -/
theorem probe_exclusive_again :
    ∃ (g : Slots) (c : Calls String) (l : CallEvent) (c' : Calls String),
      Observes slotKeeper (circuit {} String) Undisturbed { clock := 0 } g c ∧
      (circuit {} String).Step c l c' ∧ c.shared.breaker.stored = .open ∧
      c'.shared.breaker.stored = .halfOpen ∧ Exclusive g c.toWorld l := by
  obtain ⟨g, c, l, c', hrun, hstep, hP⟩ := observed_of_played slotKeeper {} 0 Undisturbed
    (.call 4 .proceed)
    (P := fun _ c _ c' => decide (c.shared.breaker.stored = .open ∧
      c'.shared.breaker.stored = .halfOpen))
    (show (observe slotKeeper _ _ _ _ (rejected 0 ++ rejected 1 ++ rejected 2 ++
      [.env (.wait 30000000)] ++ approaches 3 ++ [.call 3 .proceed, .call 3 (.reject "TIMEOUT"),
        .call 3 .proceed, .call 3 .proceed, .env (.wait 30000000)] ++ approaches 4)).any _ = true by
      decide +kernel)
  obtain ⟨hopen, hhalf⟩ := of_decide_eq_true hP
  exact ⟨g, c, l, c', hrun, hstep, hopen, hhalf, probe_exclusive hrun hstep⟩

/-- Without the condition, the failure of a call that entered while the circuit was closed takes the
slot from the probe, and after the cooldown there is a second probe beside the first one. -/
theorem probe_shared :
    ¬ ∀ (g : Slots) (c : Calls String) (l : CallEvent) (c' : Calls String),
      Observes slotKeeper (circuit {} String) anyObserved { clock := 0 } g c →
      (circuit {} String).Step c l c' → Exclusive g c.toWorld l := by
  intro hexclusive
  obtain ⟨g, c, l, c', hrun, hstep, hP⟩ := observed_of_played slotKeeper {} 0 anyObserved
    (.call 5 .proceed) (P := fun g c l _ => decide (¬ Exclusive g c.toWorld l))
    (show (observe slotKeeper _ _ _ _ ([.spawn .enter, .call 0 .proceed] ++ rejected 1 ++
      rejected 2 ++ rejected 3 ++ [.env (.wait 30000000)] ++ approaches 4 ++ [.call 4 .proceed,
        .call 0 (.reject "TIMEOUT"), .call 0 .proceed, .call 0 .proceed, .env (.wait 30000000)] ++
      approaches 5)).any _ = true by decide +kernel)
  exact of_decide_eq_true hP (hexclusive g c l c' hrun hstep)

end MiniWallet

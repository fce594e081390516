import MiniWallet.Process.Observer
import MiniWallet.Services.CircuitBreaker

/-!
# Calls through the circuit breaker

Any number of calls go through one circuit breaker. What they share is its keys in Redis and the
time. The function that a call protects is arbitrary, takes any time and ends in any way, as long as
it leaves the keys of the circuit breaker alone.

* `circuit`: the system of all calls.
* `checks`: what a call sends to Redis, in particular that it runs the script that claims the probe
  slot only after it has found the cooldown to be over.
-/

namespace MiniWallet

open Process

/-- The state of the circuit; a missing key stands for a closed one. -/
def Breaker.stored (b : Breaker) : CircuitState := b.state.getD .closed

/-- The circuit is half-open exactly if its key says so. -/
theorem Breaker.stored_halfOpen {b : Breaker} :
    b.stored = .halfOpen ↔ b.state = some .halfOpen := by
  rw [stored]
  cases b.state with
  | none => simp
  | some state => simp

/-- The circuit is open exactly if its key says so. -/
theorem Breaker.stored_open {b : Breaker} : b.stored = .open ↔ b.state = some .open := by
  rw [stored]
  cases b.state with
  | none => simp
  | some state => simp

/-- The script gives the slot of an open circuit to its caller unless it is taken. -/
theorem Breaker.claimable_iff {b : Breaker} {clock : Time} :
    b.claimable clock = true ↔ b.state = some .open ∧ b.probing clock = false := by
  simp [claimable]

/-- What the calls share. -/
structure Circuit where
  /-- The keys of the circuit breaker. -/
  breaker : Breaker := {}
  clock : Time
deriving DecidableEq, Repr

/-- What a call has read of the keys and the clock. -/
structure Visit where
  /-- The instant of the last failure, if it was read. -/
  lastFailure : Option (Option Time) := none
  /-- The time, when it was read last. -/
  clockRead : Option Time := none
deriving DecidableEq, Repr

/-- The operation is a command of the circuit breaker. -/
def Op.isBreaker : Op → Bool
  | .breaker _ => true
  | _ => false

/-- The results of an operation. What the protected function does is left open. -/
def Circuit.Ends (s : Circuit) : (o : Op) → Except Exc o.Out → Prop
  | .breaker c, r => r = .ok (c.reply s.breaker s.clock) ∨ r = .error .redisError
  | .now, r => r = .ok s.clock
  | _, _ => True

/-- What the call has read after an operation. -/
def Visit.after : (o : Op) → Except Exc o.Out → Visit → Visit
  | .breaker .getLastFailureAt, .ok t, σ => { σ with lastFailure := some t }
  | .now, .ok t, σ => { σ with clockRead := some t }
  | _, _, σ => σ

/-- What the calls share after an operation. A command that fails has no effect. -/
def Circuit.effect : (o : Op) → Except Exc o.Out → Visit → Circuit → Circuit
  | .breaker c, .ok _, _, s => { s with breaker := c.effect s.breaker s.clock }
  | _, _, _, s => s

/-- The calls through the circuit breaker, each a process of its own. -/
def circuit (cb : CircuitBreaker) (α : Type) : System Op Op.Out Exc α Circuit Visit where
  idle := {}
  enabled := fun _ o r w => w.shared.Ends o r
  after := Visit.after
  effect := Circuit.effect
  env := fun s s' => ∃ clock, s.clock ≤ clock ∧ s' = { s with clock := clock }
  start := fun p => ∃ fn : Program α, fn.Awaits (fun o => o.isBreaker = false) ∧ p = cb.call fn

/-- A configuration of the calls through a circuit breaker. -/
abbrev Calls (α : Type) := Config Op Op.Out Exc α Circuit Visit

/-- What happens in a step of a call. -/
abbrev CallEvent := Label Op Op.Out Exc

/-- A condition on the commands that Redis answers. -/
def OnCommand (P : ℕ → BreakerCommand → Prop) : CallEvent → Prop
  | .call i (.breaker c) (.ok _) => P i c
  | _ => True

/-- Whether a condition on the commands holds of a step is decidable. -/
instance (P : ℕ → BreakerCommand → Prop) [∀ i c, Decidable (P i c)] (l : CallEvent) :
    Decidable (OnCommand P l) :=
  match l with
  | .call i (.breaker c) (.ok _) => inferInstanceAs (Decidable (P i c))
  | .call _ (.breaker _) (.error _) | .call _ .now _ | .call _ .uuid4 _ | .call _ (.cacheGet _) _
  | .call _ (.cacheSet _ _) _ | .call _ (.select _) _ | .call _ (.lockAccount _) _
  | .call _ (.lockWithdrawal _) _ | .call _ (.claimStuck _ _) _ | .call _ (.write _) _
  | .call _ .commit _ | .call _ .rollback _ | .call _ (.sendWithdrawal _ _ _) _
  | .call _ (.queryStatus _) _ | .spawn | .stop _ | .env => inferInstanceAs (Decidable True)

/-! ## What a call checks -/

/-- The cooldown of the last recorded failure is over. -/
def Circuit.CooledDown (cb : CircuitBreaker) (s : Circuit) : Prop :=
  ∀ t ∈ s.breaker.lastFailureAt, cb.cooldownSeconds * 1000000 ≤ s.clock - t

/-- Whether the cooldown is over is decidable. -/
instance (cb : CircuitBreaker) (s : Circuit) : Decidable (s.CooledDown cb) :=
  inferInstanceAs (Decidable (∀ t ∈ s.breaker.lastFailureAt, _ ≤ s.clock - t))

/-- The call has read the last failure, and has then found its cooldown to be over. -/
def Visit.Checked (cb : CircuitBreaker) (σ : Visit) : Prop :=
  ∃ read, σ.lastFailure = some read ∧
    ∀ t ∈ read, ∃ at_, σ.clockRead = some at_ ∧ cb.cooldownSeconds * 1000000 ≤ at_ - t

/-- What a call sends to Redis: it claims the probe slot for `_PROBE_TTL_SECONDS`, that of an open
circuit only after its check, and it reports a failure under the time that it has read. -/
def checks (cb : CircuitBreaker) : Contract Op Op.Out Exc Visit where
  guard
    | .breaker (.claimProbe ttl), σ => ttl = probeTtlSeconds ∧ σ.Checked cb
    | .breaker (.setProbe ttl), _ => ttl = probeTtlSeconds
    | .breaker (.recordFailure threshold now), σ =>
        threshold = cb.failureThreshold ∧ σ.clockRead = some now
    | _, _ => True
  possible := fun _ _ _ => True

section Checks

variable {cb : CircuitBreaker} {α : Type} {R : Exc → Visit → Prop} {σ : Visit}

/-- A cooldown that is found to be over has been checked. -/
theorem checks_cooldownElapsed (hR : ∀ e σ', R e σ') :
    (checks cb).wp Visit.after cb.cooldownElapsed (fun b σ' => b = true → σ'.Checked cb) R σ := by
  rw [CircuitBreaker.cooldownElapsed, Contract.wp_bind]
  refine (Contract.wp_perform _ _ (Op.breaker .getLastFailureAt)).mpr
    ⟨trivial, fun read _ => ?_, fun e _ => hR _ _⟩
  cases read with
  | none => exact (Contract.wp_pure _ _ _).mpr fun _ => ⟨none, rfl, fun t ht => nomatch ht⟩
  | some lastFailure =>
      dsimp only
      rw [Contract.wp_bind]
      refine (Contract.wp_perform _ _ Op.now).mpr ⟨trivial, fun at_ _ => ?_, fun e _ => hR _ _⟩
      refine (Contract.wp_pure _ _ _).mpr fun helapsed => ?_
      refine ⟨some lastFailure, rfl, fun t ht => ⟨at_, rfl, ?_⟩⟩
      cases ht
      exact of_decide_eq_true helapsed

/-- Going on if the slot is claimed, and stopping if not, keeps to the contract. -/
theorem checks_claimed {claimed : Bool} :
    (checks cb).Safe Visit.after (if claimed then pure () else throw .circuitOpen : Program Unit)
      σ := by
  cases claimed with
  | true => exact (Contract.wp_pure _ _ _).mpr trivial
  | false => exact (Contract.wp_throw _ _ _).mpr trivial

/-- A call enters the circuit after its check. -/
theorem checks_enter : (checks cb).Safe Visit.after cb.enter σ := by
  unfold Contract.Safe
  rw [CircuitBreaker.enter, Contract.wp_bind]
  refine (Contract.wp_perform _ _ (Op.breaker .getState)).mpr
    ⟨trivial, fun state _ => ?_, fun e _ => trivial⟩
  cases Option.getD state .closed with
  | closed => exact (Contract.wp_pure _ _ _).mpr trivial
  | «open» =>
      dsimp only
      rw [Contract.wp_bind]
      refine Contract.wp_mono _ _ (fun b σ' hchecked => ?_) (fun _ _ h => h)
        (checks_cooldownElapsed fun _ _ => trivial)
      -- what is claimed is claimed after the cooldown was found to be over
      cases b with
      | false => exact (Contract.wp_throw _ _ _).mpr trivial
      | true =>
          rw [if_pos rfl, Contract.wp_bind]
          exact (Contract.wp_perform _ _ (Op.breaker (.claimProbe _))).mpr
            ⟨⟨rfl, hchecked rfl⟩, fun claimed _ => checks_claimed, fun _ _ => trivial⟩
  | halfOpen =>
      dsimp only
      rw [Contract.wp_bind]
      refine (Contract.wp_perform _ _ (Op.breaker .probeExists)).mpr
        ⟨trivial, fun probeActive _ => ?_, fun _ _ => trivial⟩
      split
      · exact (Contract.wp_throw _ _ _).mpr trivial
      · -- `SET NX` claims the probe without a look at the clock
        rw [Contract.wp_bind]
        exact (Contract.wp_perform _ _ (Op.breaker (.setProbe _))).mpr
          ⟨rfl, fun claimed _ => checks_claimed, fun _ _ => trivial⟩

/-- Reporting a failure keeps to the contract. -/
theorem checks_onFailure : (checks cb).Safe Visit.after cb.onFailure σ := by
  unfold Contract.Safe
  rw [CircuitBreaker.onFailure, Contract.wp_bind]
  refine (Contract.wp_perform _ _ Op.now).mpr ⟨trivial, fun at_ _ => ?_, fun _ _ => trivial⟩
  rw [Contract.wp_bind]
  exact (Contract.wp_perform _ _ (Op.breaker (.recordFailure _ _))).mpr
    ⟨⟨rfl, rfl⟩, fun _ _ => (Contract.wp_pure _ _ _).mpr trivial, fun _ _ => trivial⟩

/-- Every call keeps to the contract. -/
theorem checks_call (cb : CircuitBreaker) {fn : Program α}
    (h : fn.Awaits (fun o => o.isBreaker = false)) :
    (checks cb).Safe Visit.after (cb.call fn) σ := by
  have hfn (σ' : Visit) : (checks cb).Safe Visit.after fn σ' := by
    refine Contract.safe_of_awaits _ _ (fun o σ'' ho => ?_) h σ'
    cases o with
    | breaker c => cases ho
    | _ => trivial
  unfold Contract.Safe
  rw [CircuitBreaker.call, Contract.wp_bind]
  -- the call is let through or raises
  refine Contract.wp_mono _ _ (fun _ σ₁ _ => ?_) (fun _ _ h => h) checks_enter
  refine Contract.wp_tryCatch_of_forall _ _ ?_ fun e σ₂ => ?_
  · -- it returns, and its success is reported
    rw [Contract.wp_bind]
    refine Contract.wp_mono _ _ (fun result σ₂ _ => ?_) (fun _ _ h => h) (hfn σ₁)
    rw [Contract.wp_bind]
    exact (Contract.wp_perform _ _ (Op.breaker .recordSuccess)).mpr
      ⟨trivial, fun _ _ => (Contract.wp_pure _ _ _).mpr trivial, fun _ _ => trivial⟩
  · -- it fails, and a rejection of the rail is reported
    split
    · rw [Contract.wp_bind]
      exact Contract.wp_mono _ _ (fun _ _ _ => (Contract.wp_throw _ _ _).mpr trivial)
        (fun _ _ h => h) checks_onFailure
    · exact (Contract.wp_throw _ _ _).mpr trivial

end Checks

/-- The calls keep to the contract. -/
theorem checks_abides (cb : CircuitBreaker) (α : Type) (s : Circuit) :
    (circuit cb α).Abides (checks cb) s where
  possible := fun _ _ => trivial
  safe := by
    rintro p ⟨fn, hfn, rfl⟩
    exact checks_call _ hfn

/-- Operations do not change the time. -/
theorem circuit_effect_clock {cb : CircuitBreaker} {α : Type} {o : Op} {r : Except Exc o.Out}
    {σ : Visit} {s : Circuit} : ((circuit cb α).effect o r σ s).clock = s.clock := by
  cases o with
  | breaker c => cases r <;> rfl
  | _ => rfl

/-- What a call has read of the clock lies in the past. -/
theorem clockRead_past {cb : CircuitBreaker} {α : Type} {s : Circuit}
    {c : Calls α} (h : (circuit cb α).Run System.anyStep ((circuit cb α).initial s) c) (i : ℕ) :
    ∀ t ∈ (c.sess i).clockRead, t ≤ c.shared.clock := by
  refine h.each (checks_abides cb α s) (J := fun s σ => ∀ t ∈ σ.clockRead, t ≤ s.clock) ?_ i
  refine { init := fun t ht => (nomatch ht), own := ?_, other := ?_, env := ?_ }
  · intro c i o r hcall hJ t ht
    have hend : c.shared.Ends o r := hcall.enabled
    rw [circuit_effect_clock]
    cases o with
    | now =>
        obtain rfl := hend
        cases ht
        exact le_rfl
    | breaker command =>
        -- no command is answered with the time
        refine hJ i t ?_
        cases command <;> cases r <;> exact ht
    | _ => exact hJ i t ht
  · intro c i o r j hcall hJ _ t ht
    rw [circuit_effect_clock]
    exact hJ j t ht
  · rintro c _ σ - hJ ⟨clock, hle, rfl⟩ t ht
    exact (hJ t ht).trans hle

/-! ## Explicit schedules -/

/-- What settles the open choices of a schedule of calls. -/
inductive Cue
  /-- Start a call that sends a payment. -/
  | enter
  /-- Nothing fails. -/
  | proceed
  /-- The rail rejects the payment. -/
  | reject (code : String)
  /-- Time passes. -/
  | wait (duration : ℕ)

/-- A payment. -/
def payment : Program String := Program.perform (.sendWithdrawal ⟨1⟩ ⟨false, 1, 0⟩ (.obj []))

/-- How the cues of a schedule choose among the steps of the calls. -/
def circuitPlayer (cb : CircuitBreaker) : (circuit cb String).Player Cue where
  spawn
    | .enter => some ⟨cb.call payment, payment, ⟨rfl, fun r => by cases r <;> trivial⟩, rfl⟩
    | _ => none
  call cue _ o w :=
    match o with
    | .breaker c => some ⟨.ok (c.reply w.shared.breaker w.shared.clock), .inl rfl⟩
    | .now => some ⟨.ok w.shared.clock, rfl⟩
    | .sendWithdrawal _ _ _ =>
        match cue with
        | .reject code => some ⟨.error (.railError code), trivial⟩
        | _ => some ⟨.ok "reference", trivial⟩
    | _ => none
  env
    | .wait duration, s => some ⟨{ s with clock := s.clock + duration }, s.clock + duration,
        Int.le_add_of_nonneg_right (Int.natCast_nonneg _), rfl⟩
    | _, _ => none

/-- What a schedule of calls ends in, if it can be played. -/
theorem circuitRun_of_played (cb : CircuitBreaker) (t₀ : Time)
    (ok : World Circuit Visit → CallEvent → Prop) [∀ w l, Decidable (ok w l)]
    {ms : List (System.Move Cue)} {P : Circuit → Prop} [DecidablePred P]
    (h : (System.play ok (circuitPlayer cb) ((circuit cb String).initial { clock := t₀ }) ms).any
      (fun c => decide (P c.shared)) = true) :
    ∃ c : Calls String,
      (circuit cb String).Run ok ((circuit cb String).initial { clock := t₀ }) c ∧ P c.shared := by
  obtain ⟨c, hc, hP⟩ := (Option.any_eq_true _ _).mp h
  exact ⟨c, System.run_of_play hc, of_decide_eq_true hP⟩

/-- What a schedule of calls ends in, with what an observer has recorded, and the step of one more
move, if all of it can be played. -/
theorem observed_of_played {Record : Type} (O : Observer Op Op.Out Exc Circuit Visit Record)
    (cb : CircuitBreaker) (t₀ : Time) (ok : Record → World Circuit Visit → CallEvent → Prop)
    [∀ g w l, Decidable (ok g w l)] {ms : List (System.Move Cue)} (m : System.Move Cue)
    {P : Record → Calls String → CallEvent → Calls String → Bool}
    (h : (observe O ok (circuitPlayer cb) O.start ((circuit cb String).initial { clock := t₀ })
      ms).any (fun (g, c) =>
        (System.playMove (circuitPlayer cb) c m).any fun (l, c') => P g c l c') = true) :
    ∃ g c l c', Observes O (circuit cb String) ok { clock := t₀ } g c ∧
      (circuit cb String).Step c l c' ∧ P g c l c' = true := by
  obtain ⟨⟨g, c⟩, hc, h⟩ := (Option.any_eq_true _ _).mp h
  obtain ⟨⟨l, c'⟩, hmove, hP⟩ := (Option.any_eq_true _ _).mp h
  exact ⟨g, c, l, c', observes_of_observe .start hc, System.playMove_step hmove, hP⟩

/-- Call `i` enters a closed circuit, and the rail rejects its payment. -/
def rejected (i : ℕ) : List (System.Move Cue) :=
  [.spawn .enter, .call i .proceed, .call i (.reject "TIMEOUT"), .call i .proceed, .call i .proceed]

/-- Call `i` comes to an open circuit, up to its claim of the probe slot. -/
def approaches (i : ℕ) : List (System.Move Cue) :=
  [.spawn .enter, .call i .proceed, .call i .proceed, .call i .proceed]

end MiniWallet

import MiniWallet.Services.Circuit

/-!
# A call by itself

A program of the circuit breaker is run while nobody else touches the keys. Redis answers at once,
and the protected operations take their time and end as the rail has it.

* `alone`: the run of a program by itself.
* `alone_enter`, `alone_isCallAllowed`: what the two admission checks decide.
* `alone_call_admitted`, `alone_call_rejected`: what a call does, from its admission to its report.
* `mem_awaited_call`: a call invokes its function exactly if it is admitted.
-/

namespace MiniWallet

open Process

/-- How the operations that do not belong to the circuit breaker end. -/
structure Rail where
  /-- How long an operation takes. -/
  duration : Op → ℕ
  result : (o : Op) → Except Exc o.Out

/-- What becomes of a program that runs by itself. -/
@[ext]
structure Ended (α : Type) where
  /-- What is shared afterwards. -/
  circuit : Circuit
  /-- The operations that were awaited, in order. -/
  awaited : List Op
  result : Except Exc α

/-- One operation, and what is shared after it. -/
def Rail.perform (rail : Rail) (s : Circuit) : (o : Op) → Except Exc o.Out × Circuit
  | .breaker c =>
    (.ok (c.reply s.breaker s.clock), { s with breaker := c.effect s.breaker s.clock })
  | .now => (.ok s.clock, s)
  | o => (rail.result o, { s with clock := s.clock + rail.duration o })

/-- Run a program by itself. -/
def alone {α : Type} (rail : Rail) : Program α → Circuit → Ended α
  | .pure a, s => ⟨s, [], .ok a⟩
  | .raise e, s => ⟨s, [], .error e⟩
  | .call o next, s =>
      let step := rail.perform s o
      let rest := alone rail (next step.1) step.2
      { rest with awaited := o :: rest.awaited }

section Rules

variable {α β : Type} {rail : Rail} {s : Circuit}

/-- A program that has returned. -/
@[simp]
theorem alone_pure (a : α) : alone rail (pure a) s = ⟨s, [], .ok a⟩ := rfl

/-- A program that has raised. -/
@[simp]
theorem alone_throw (e : Exc) : alone rail (throw e : Program α) s = ⟨s, [], .error e⟩ := rfl

/-- Run the first part, and then the second part if the first one returned. -/
theorem alone_bind_ok {p : Program α} {s' : Circuit} {ops : List Op} {a : α}
    (h : alone rail p s = ⟨s', ops, .ok a⟩) (f : α → Program β) :
    alone rail (p >>= f) s =
      { alone rail (f a) s' with awaited := ops ++ (alone rail (f a) s').awaited } := by
  change alone rail (p.bind f) s = _
  induction p generalizing s ops with
  | pure a' =>
      cases h
      rfl
  | raise e => cases h
  | call o next ih =>
      simp only [alone, Ended.mk.injEq] at h
      obtain ⟨hcircuit, rfl, hresult⟩ := h
      rw [Prog.bind, alone, ih _ (Ended.ext hcircuit rfl hresult)]
      rfl

/-- If the first part raises, the second part does not run. -/
theorem alone_bind_error {p : Program α} {s' : Circuit} {ops : List Op} {e : Exc}
    (h : alone rail p s = ⟨s', ops, .error e⟩) (f : α → Program β) :
    alone rail (p >>= f) s = ⟨s', ops, .error e⟩ := by
  change alone rail (p.bind f) s = _
  induction p generalizing s ops with
  | pure a => cases h
  | raise e' =>
      cases h
      rfl
  | call o next ih =>
      simp only [alone, Ended.mk.injEq] at h
      obtain ⟨hcircuit, rfl, hresult⟩ := h
      rw [Prog.bind, alone, ih _ (Ended.ext hcircuit rfl hresult)]

/-- A body that returns does not need its handler. -/
theorem alone_tryCatch_ok {p : Program α} {s' : Circuit} {ops : List Op} {a : α}
    (h : alone rail p s = ⟨s', ops, .ok a⟩) (handler : Exc → Program α) :
    alone rail (tryCatch p handler) s = ⟨s', ops, .ok a⟩ := by
  change alone rail (p.tryCatch handler) s = _
  induction p generalizing s ops with
  | pure a' =>
      cases h
      rfl
  | raise e => cases h
  | call o next ih =>
      simp only [alone, Ended.mk.injEq] at h
      obtain ⟨hcircuit, rfl, hresult⟩ := h
      rw [Prog.tryCatch, alone, ih _ (Ended.ext hcircuit rfl hresult)]

/-- A body that raises is followed by its handler. -/
theorem alone_tryCatch_error {p : Program α} {s' : Circuit} {ops : List Op} {e : Exc}
    (h : alone rail p s = ⟨s', ops, .error e⟩) (handler : Exc → Program α) :
    alone rail (tryCatch p handler) s =
      { alone rail (handler e) s' with awaited := ops ++ (alone rail (handler e) s').awaited } := by
  change alone rail (p.tryCatch handler) s = _
  induction p generalizing s ops with
  | pure a => cases h
  | raise e' =>
      cases h
      rfl
  | call o next ih =>
      simp only [alone, Ended.mk.injEq] at h
      obtain ⟨hcircuit, rfl, hresult⟩ := h
      rw [Prog.tryCatch, alone, ih _ (Ended.ext hcircuit rfl hresult)]
      rfl

end Rules

/-! ## Admission -/

/-- The operation is one of the circuit breaker itself: a command, or a look at the clock. -/
def Op.isOwn : Op → Bool
  | .breaker _ => true
  | .now => true
  | _ => false

/-- What `is_call_allowed` checks. -/
def Circuit.Allows (cb : CircuitBreaker) (s : Circuit) : Prop :=
  match s.breaker.stored with
  | .closed => True
  | .open => s.CooledDown cb
  | .halfOpen => s.breaker.probing s.clock = false

/-- What a call needs to go through. -/
def Circuit.Admits (cb : CircuitBreaker) (s : Circuit) : Prop :=
  match s.breaker.stored with
  | .closed => True
  | .open => s.CooledDown cb ∧ s.breaker.probing s.clock = false
  | .halfOpen => s.breaker.probing s.clock = false

/-- What is shared after a call has gone through. -/
def Circuit.entered (s : Circuit) : Circuit :=
  match s.breaker.stored with
  | .closed => s
  | .open | .halfOpen =>
      { s with breaker :=
          { s.breaker with
            state := some .halfOpen
            probeActive := some (s.clock + probeTtlSeconds * 1000000) } }

section Admission

variable {α : Type} (rail : Rail) (cb : CircuitBreaker) (s : Circuit)

/-- The check of the cooldown decides whether it is over. -/
theorem alone_cooldownElapsed :
    ∃ ops, ops.all Op.isOwn = true ∧
      alone rail cb.cooldownElapsed s = ⟨s, ops, .ok (decide (s.CooledDown cb))⟩ := by
  have hget : alone rail Program.getLastFailureAt s =
      ⟨s, [.breaker .getLastFailureAt], .ok s.breaker.lastFailureAt⟩ := rfl
  rw [CircuitBreaker.cooldownElapsed, alone_bind_ok hget]
  cases hlast : s.breaker.lastFailureAt with
  | none =>
      have hcool : s.CooledDown cb := by
        intro t ht
        rw [hlast] at ht
        cases ht
      exact ⟨[.breaker .getLastFailureAt], by simp [Op.isOwn], by simp [hcool]⟩
  | some t =>
      have hnow : alone rail Program.now s = ⟨s, [.now], .ok s.clock⟩ := rfl
      refine ⟨[.breaker .getLastFailureAt, .now], by simp [Op.isOwn], ?_⟩
      simp only [alone_bind_ok hnow, alone_pure]
      simp [Circuit.CooledDown, hlast]

/-- `is_call_allowed` decides what it checks. -/
theorem alone_isCallAllowed :
    (alone rail cb.isCallAllowed s).result = .ok true ↔ s.Allows cb := by
  have hget : alone rail Program.getState s = ⟨s, [.breaker .getState], .ok s.breaker.state⟩ := rfl
  rw [CircuitBreaker.isCallAllowed, alone_bind_ok hget]
  unfold Circuit.Allows
  rw [Breaker.stored]
  cases s.breaker.state.getD .closed with
  | closed => simp
  | «open» =>
      obtain ⟨ops, -, helapsed⟩ := alone_cooldownElapsed rail cb s
      simp [helapsed]
  | halfOpen =>
      have hexists : alone rail Program.probeExists s =
          ⟨s, [.breaker .probeExists], .ok (s.breaker.probing s.clock)⟩ := rfl
      simp [alone_bind_ok hexists]

/-- Claiming the slot of an open circuit, once the cooldown is over. -/
theorem alone_claimProbe (hopen : s.breaker.state = some .open) :
    alone rail (Program.claimProbe probeTtlSeconds) s =
      if s.breaker.probing s.clock then
        ⟨s, [.breaker (.claimProbe probeTtlSeconds)], .ok false⟩
      else ⟨s.entered, [.breaker (.claimProbe probeTtlSeconds)], .ok true⟩ := by
  have hclaim : alone rail (Program.claimProbe probeTtlSeconds) s =
      ⟨{ s with breaker := (BreakerCommand.claimProbe probeTtlSeconds).effect s.breaker s.clock },
        [.breaker (.claimProbe probeTtlSeconds)], .ok (s.breaker.claimable s.clock)⟩ := rfl
  rw [hclaim, BreakerCommand.effect, Circuit.entered, Breaker.stored_open.mpr hopen]
  cases hprobing : s.breaker.probing s.clock <;> simp [Breaker.claimable, hopen, hprobing]

/-- Claiming the slot of a half-open circuit. -/
theorem alone_setProbe (hhalf : s.breaker.state = some .halfOpen)
    (hprobing : s.breaker.probing s.clock = false) :
    alone rail (Program.setProbe probeTtlSeconds) s =
      ⟨s.entered, [.breaker (.setProbe probeTtlSeconds)], .ok true⟩ := by
  have hclaim : alone rail (Program.setProbe probeTtlSeconds) s =
      ⟨{ s with breaker := (BreakerCommand.setProbe probeTtlSeconds).effect s.breaker s.clock },
        [.breaker (.setProbe probeTtlSeconds)], .ok (!s.breaker.probing s.clock)⟩ := rfl
  rw [hclaim, BreakerCommand.effect, Circuit.entered, Breaker.stored_halfOpen.mpr hhalf]
  simp [hprobing, hhalf]

/-- A call goes through exactly if it is admitted. -/
theorem alone_enter :
    ∃ ops, ops.all Op.isOwn = true ∧
      ((s.Admits cb ∧ alone rail cb.enter s = ⟨s.entered, ops, .ok ()⟩) ∨
        (¬ s.Admits cb ∧ alone rail cb.enter s = ⟨s, ops, .error .circuitOpen⟩)) := by
  have hget : alone rail Program.getState s = ⟨s, [.breaker .getState], .ok s.breaker.state⟩ := rfl
  rw [CircuitBreaker.enter, alone_bind_ok hget]
  unfold Circuit.Admits
  have hgetD : s.breaker.state.getD .closed = s.breaker.stored := rfl
  rw [hgetD]
  cases hstored : s.breaker.stored with
  | closed =>
      -- closed: the call is admitted and nothing changes
      have hentered : s.entered = s := by rw [Circuit.entered, hstored]
      exact ⟨[.breaker .getState], rfl, .inl ⟨trivial, by simp [hentered]⟩⟩
  | «open» =>
      -- open: after the cooldown the probe is claimed if it is free
      have hclaim := alone_claimProbe rail s (Breaker.stored_open.mp hstored)
      obtain ⟨ops, hops, helapsed⟩ := alone_cooldownElapsed rail cb s
      by_cases hcool : s.CooledDown cb
      · refine ⟨.breaker .getState :: (ops ++ [.breaker (.claimProbe probeTtlSeconds)]), ?_, ?_⟩
        · simp [hops, Op.isOwn]
        · cases hprobing : s.breaker.probing s.clock with
          | false =>
              rw [hprobing, if_neg (by simp)] at hclaim
              refine .inl ⟨⟨hcool, rfl⟩, ?_⟩
              simp [alone_bind_ok helapsed, hcool, alone_bind_ok hclaim]
          | true =>
              rw [hprobing, if_pos rfl] at hclaim
              refine .inr ⟨by rintro ⟨-, ⟨⟩⟩, ?_⟩
              simp [alone_bind_ok helapsed, hcool, alone_bind_ok hclaim]
      · refine ⟨.breaker .getState :: ops, by simp [hops, Op.isOwn], .inr ⟨fun h => hcool h.1, ?_⟩⟩
        simp [alone_bind_ok helapsed, hcool]
  | halfOpen =>
      -- half-open: the probe is free, or another call has it
      have hexists : alone rail Program.probeExists s =
          ⟨s, [.breaker .probeExists], .ok (s.breaker.probing s.clock)⟩ := rfl
      cases hprobing : s.breaker.probing s.clock with
      | false =>
          have hset := alone_setProbe rail s (Breaker.stored_halfOpen.mp hstored) hprobing
          refine ⟨[.breaker .getState, .breaker .probeExists, .breaker (.setProbe probeTtlSeconds)],
            rfl, .inl ⟨rfl, ?_⟩⟩
          simp [alone_bind_ok hexists, hprobing, alone_bind_ok hset]
      | true =>
          refine ⟨[.breaker .getState, .breaker .probeExists], rfl, .inr ⟨by simp, ?_⟩⟩
          simp [alone_bind_ok hexists, hprobing]

end Admission

/-! ## Calls -/

/-- A call after it has gone through: its function and the report. -/
def CircuitBreaker.protect {α : Type} (cb : CircuitBreaker) (fn : Program α) : Program α := do
  try
    let result ← fn
    CircuitBreaker.onSuccess
    pure result
  catch
    | .railError code =>
        cb.onFailure
        throw (.railError code)
    | e => throw e

/-- A call goes through and then runs its function. -/
theorem CircuitBreaker.call_eq {α : Type} (cb : CircuitBreaker) (fn : Program α) :
    cb.call fn = (do cb.enter; cb.protect fn) := rfl

section Calls

variable {α : Type} {rail : Rail} {cb : CircuitBreaker} {fn : Program α} {s : Circuit}

/-- A call that is admitted runs its function after operations of the circuit breaker. -/
theorem alone_call_admitted (rail : Rail) (fn : Program α) (h : s.Admits cb) :
    ∃ ops, ops.all Op.isOwn = true ∧
      alone rail (cb.call fn) s =
        { alone rail (cb.protect fn) s.entered with
          awaited := ops ++ (alone rail (cb.protect fn) s.entered).awaited } := by
  obtain ⟨ops, hops, ⟨-, henter⟩ | ⟨hnot, -⟩⟩ := alone_enter rail cb s
  · exact ⟨ops, hops, by rw [CircuitBreaker.call_eq, alone_bind_ok henter]⟩
  · exact absurd h hnot

/-- A call that is not admitted raises, and leaves the keys as they are. -/
theorem alone_call_rejected (rail : Rail) (fn : Program α) (h : ¬ s.Admits cb) :
    ∃ ops, ops.all Op.isOwn = true ∧
      alone rail (cb.call fn) s = ⟨s, ops, .error .circuitOpen⟩ := by
  obtain ⟨ops, hops, ⟨hadmits, -⟩ | ⟨-, henter⟩⟩ := alone_enter rail cb s
  · exact absurd hadmits h
  · exact ⟨ops, hops, by rw [CircuitBreaker.call_eq, alone_bind_error henter]⟩

/-- A call invokes its function exactly if it is admitted. -/
theorem mem_awaited_call {o : Op} {next : Except Exc o.Out → Program α} (ho : o.isOwn = false) :
    o ∈ (alone rail (cb.call (.call o next)) s).awaited ↔ s.Admits cb := by
  -- the operations before the function are those of the circuit breaker itself
  have hother {ops : List Op} (hops : ops.all Op.isOwn = true) : o ∉ ops := by
    intro hmem
    rw [List.all_eq_true.mp hops o hmem] at ho
    cases ho
  by_cases h : s.Admits cb
  · obtain ⟨ops, -, hcall⟩ := alone_call_admitted rail (.call o next) h
    have hfirst : o ∈ (alone rail (cb.protect (.call o next)) s.entered).awaited :=
      List.mem_cons_self
    simp [hcall, hfirst, h]
  · obtain ⟨ops, hops, hcall⟩ := alone_call_rejected rail (.call o next) h
    simp [hcall, hother hops, h]

/-- A function that returns is followed by the report of a success. -/
theorem alone_protect_ok {s' : Circuit} {ops : List Op} {a : α}
    (h : alone rail fn s = ⟨s', ops, .ok a⟩) :
    alone rail (cb.protect fn) s =
      ⟨{ s' with breaker := BreakerCommand.recordSuccess.effect s'.breaker s'.clock },
        ops ++ [.breaker .recordSuccess], .ok a⟩ := by
  have hreport : alone rail CircuitBreaker.onSuccess s' =
      ⟨{ s' with breaker := BreakerCommand.recordSuccess.effect s'.breaker s'.clock },
        [.breaker .recordSuccess], .ok ()⟩ := rfl
  refine alone_tryCatch_ok ?_ _
  rw [alone_bind_ok h, alone_bind_ok hreport, alone_pure]
  simp

/-- A function that fails is followed by the report of a failure. -/
theorem alone_protect_railError {s' : Circuit} {ops : List Op} {code : String}
    (h : alone rail fn s = ⟨s', ops, .error (.railError code)⟩) :
    alone rail (cb.protect fn) s =
      ⟨{ s' with breaker :=
          (BreakerCommand.recordFailure cb.failureThreshold s'.clock).effect s'.breaker s'.clock },
        ops ++ [.now, .breaker (.recordFailure cb.failureThreshold s'.clock)],
        .error (.railError code)⟩ := by
  have hreport : alone rail cb.onFailure s' =
      ⟨{ s' with breaker :=
          (BreakerCommand.recordFailure cb.failureThreshold s'.clock).effect s'.breaker s'.clock },
        [.now, .breaker (.recordFailure cb.failureThreshold s'.clock)], .ok ()⟩ := rfl
  rw [CircuitBreaker.protect, alone_tryCatch_error (alone_bind_error h _)]
  simp only [alone_bind_ok hreport, alone_throw, List.append_nil]

end Calls

end MiniWallet

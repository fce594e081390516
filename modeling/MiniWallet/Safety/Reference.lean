import MiniWallet.Services.Alone

/-!
# One call after the other

Calls that do not overlap see a simple automaton: a closed circuit that counts consecutive failures,
and an open one that remembers its last failure. The half-open state is passed through within a
single call. The keys in Redis simulate this automaton.

* `Phase`: the reference automaton.
* `Simulates`: how its phases are stored.
* `sequential_refinement`: every sequence of calls is decided as the automaton decides it, and shows
  its state.
-/

namespace MiniWallet

open Process

variable {α : Type} {cb : CircuitBreaker}

/-! ## The status -/

/-- What `get_status` returns. -/
structure CircuitStatus where
  state : CircuitState
  failureCount : ℤ
  lastFailureAt : Option Time
deriving DecidableEq, Repr

/-- `get_status`, while nobody else touches the keys. -/
def Breaker.getStatus (b : Breaker) : CircuitStatus where
  state := b.state.getD .closed
  failureCount := b.failureCount.getD 0
  lastFailureAt := b.lastFailureAt

/-! ## Sequences of calls -/

/-- The program has returned, or the rail has failed. -/
def Ended.Settled (e : Ended α) : Prop :=
  (∃ a, e.result = .ok a) ∨ ∃ code, e.result = .error (.railError code)

/-- The program has returned. -/
def Ended.succeeded (e : Ended α) : Bool :=
  match e.result with
  | .ok _ => true
  | .error _ => false

/-- The call was not rejected by the circuit breaker. -/
def Ended.invoked (e : Ended α) : Bool :=
  match e.result with
  | .error .circuitOpen => false
  | _ => true

/-- A call in a sequence of calls. Its function leaves the keys of the circuit breaker alone, and
ends in success or in an error of the rail. -/
structure Attempt (α : Type) where
  /-- How long after the end of the call before it the call is made. -/
  pause : ℕ
  rail : Rail
  fn : Program α
  apart : fn.Awaits (fun o => o.isBreaker = false)
  settles : ∀ clock, (alone rail fn { clock := clock }).Settled

/-- What is seen of a call. -/
structure Decision where
  /-- The function was invoked. -/
  invoked : Bool
  /-- The state in the status after the call. -/
  state : CircuitState
deriving DecidableEq, Repr

/-- Make the calls one after the other. -/
def attend (cb : CircuitBreaker) : Circuit → List (Attempt α) → List Decision
  | _, [] => []
  | s, a :: rest =>
      let ended := alone a.rail (cb.call a.fn) { s with clock := s.clock + a.pause }
      ⟨ended.invoked, ended.circuit.breaker.getStatus.state⟩ :: attend cb ended.circuit rest

/-! ## The reference automaton -/

/-- The phases of the reference automaton. -/
inductive Phase
  /-- Closed, after this number of consecutive failures. -/
  | closed (failures : ℕ)
  /-- Open, since the last failure at this instant. -/
  | opened (since : Time)

namespace Phase

/-- The state that the phase shows. -/
def state : Phase → CircuitState
  | closed _ => .closed
  | opened _ => .open

/-- A closed circuit admits every call, and an open one those after the cooldown. -/
def Admits (cb : CircuitBreaker) (start : Time) : Phase → Prop
  | closed _ => True
  | opened since => cb.cooldownSeconds * 1000000 ≤ start - since

/-- Whether a phase admits a call is decidable. -/
instance (cb : CircuitBreaker) (start : Time) (p : Phase) : Decidable (p.Admits cb start) :=
  match p with
  | closed _ => inferInstanceAs (Decidable True)
  | opened _ => inferInstanceAs (Decidable (_ ≤ _))

/-- The phase after a call that was admitted and has ended at `finish`. -/
def next (cb : CircuitBreaker) (finish : Time) (succeeded : Bool) : Phase → Phase
  | closed failures =>
      if succeeded then closed 0
      else if (failures + 1 : ℤ) = cb.failureThreshold then opened finish
      else closed (failures + 1)
  | opened _ => if succeeded then closed 0 else opened finish

/-- The decisions of the automaton on a sequence of calls. -/
def attend (cb : CircuitBreaker) : Phase → Time → List (Attempt α) → List Decision
  | _, _, [] => []
  | p, clock, a :: rest =>
      let start := clock + a.pause
      if p.Admits cb start then
        let ended := alone a.rail a.fn { clock := start }
        let p' := p.next cb ended.circuit.clock ended.succeeded
        ⟨true, p'.state⟩ :: attend cb p' ended.circuit.clock rest
      else ⟨false, p.state⟩ :: attend cb p start rest

end Phase

/-! ## The simulation -/

/-- How the phases are stored. No probe key is left between two calls. -/
def Simulates (cb : CircuitBreaker) (b : Breaker) : Phase → Prop
  | .closed failures =>
      b.stored = .closed ∧ b.failureCount.getD 0 = failures ∧ (failures : ℤ) < cb.failureThreshold ∧
        b.probeActive = none
  | .opened since =>
      b.state = some .open ∧ b.lastFailureAt = some since ∧ b.probeActive = none

/-- A program that leaves the keys alone does not depend on them. -/
theorem alone_apart (rail : Rail) {fn : Program α} (h : fn.Awaits (fun o => o.isBreaker = false))
    (s : Circuit) :
    alone rail fn s =
      { alone rail fn { clock := s.clock } with
        circuit := { s with clock := (alone rail fn { clock := s.clock }).circuit.clock } } := by
  induction fn generalizing s with
  | pure a => rfl
  | raise e => rfl
  | call o next ih =>
      obtain ⟨ho, hnext⟩ := h
      -- the operation ends alike, and only the time goes on
      have hresult : (rail.perform s o).1 = (rail.perform { clock := s.clock } o).1 := by
        cases o with
        | breaker c => cases ho
        | _ => rfl
      have hbreaker (s' : Circuit) : (rail.perform s' o).2.breaker = s'.breaker := by
        cases o with
        | breaker c => cases ho
        | _ => rfl
      have hclock : (rail.perform s o).2.clock = (rail.perform { clock := s.clock } o).2.clock := by
        cases o with
        | breaker c => cases ho
        | _ => rfl
      simp only [alone]
      rw [ih _ (hnext _), ih _ (hnext _) (rail.perform { clock := s.clock } o).2, hresult, hclock,
        hbreaker]

namespace Simulates

variable {s : Circuit} {p : Phase}

/-- The phase shows the state of the circuit. -/
theorem state (h : Simulates cb s.breaker p) : s.breaker.getStatus.state = p.state := by
  cases p with
  | closed failures => exact h.1
  | opened since => exact Breaker.stored_open.mpr h.1

/-- The circuit admits what the phase admits. -/
theorem admits_iff (h : Simulates cb s.breaker p) : s.Admits cb ↔ p.Admits cb s.clock := by
  unfold Circuit.Admits
  cases p with
  | closed failures =>
      rw [h.1]
      exact Iff.rfl
  | opened since =>
      obtain ⟨hopen, hlast, hprobe⟩ := h
      rw [Breaker.stored_open.mpr hopen]
      simp [Circuit.CooledDown, hlast, Breaker.probing, hprobe, Phase.Admits]

/-- A success leads to the initial phase. -/
theorem recordSuccess (b : Breaker) (clock : Time) (hthreshold : 1 ≤ cb.failureThreshold) :
    Simulates cb (BreakerCommand.recordSuccess.effect b clock) (.closed 0) :=
  ⟨rfl, rfl, by omega, rfl⟩

/-- The failure of a call that has entered leads to the next phase. -/
theorem recordFailure (h : Simulates cb s.breaker p) (finish : Time) :
    Simulates cb
      ((BreakerCommand.recordFailure cb.failureThreshold finish).effect s.entered.breaker finish)
      (p.next cb finish false) := by
  cases p with
  | closed failures =>
      obtain ⟨hclosed, hcount, hlt, hprobe⟩ := h
      have hentered : s.entered = s := by rw [Circuit.entered, hclosed]
      have hhalf : ¬ s.breaker.state = some .halfOpen := by
        intro hstate
        rw [Breaker.stored_halfOpen.mpr hstate] at hclosed
        cases hclosed
      rw [hentered, BreakerCommand.effect, if_neg hhalf, hcount]
      simp only [Phase.next, Bool.false_eq_true, if_false]
      -- below the threshold so far, the count reaches it exactly if it is equal now
      by_cases heq : (failures + 1 : ℤ) = cb.failureThreshold
      · rw [if_pos heq.ge, if_pos heq]
        exact ⟨rfl, rfl, hprobe⟩
      · have hbelow : (failures + 1 : ℤ) < cb.failureThreshold := by omega
        rw [if_neg (not_le.mpr hbelow), if_neg heq]
        exact ⟨hclosed, by simp, by push_cast; exact hbelow, hprobe⟩
  | opened since =>
      have hentered : s.entered.breaker.state = some .halfOpen := by
        rw [Circuit.entered, Breaker.stored_open.mpr h.1]
      rw [BreakerCommand.effect, if_pos hentered]
      exact ⟨rfl, rfl, rfl⟩

end Simulates

/-- Entering takes no time. -/
theorem Circuit.entered_clock (s : Circuit) : s.entered.clock = s.clock := by
  unfold Circuit.entered
  cases s.breaker.stored <;> rfl

/-- One call: it is decided as the automaton decides it, and the keys simulate the next phase. -/
theorem attempt_simulates (hthreshold : 1 ≤ cb.failureThreshold) (a : Attempt α) {s : Circuit}
    {p : Phase} (h : Simulates cb s.breaker p) (hadmits : p.Admits cb s.clock) :
    let ended := alone a.rail (cb.call a.fn) s
    let own := alone a.rail a.fn { clock := s.clock }
    ended.invoked = true ∧ ended.circuit.clock = own.circuit.clock ∧
      Simulates cb ended.circuit.breaker (p.next cb own.circuit.clock own.succeeded) := by
  intro ended own
  -- the call is admitted, and what the wrapped function does is apart from the circuit breaker
  obtain ⟨ops, -, hcall⟩ := alone_call_admitted a.rail a.fn (h.admits_iff.mpr hadmits)
  have hfn : alone a.rail a.fn s.entered =
      ⟨{ s.entered with clock := own.circuit.clock }, own.awaited, own.result⟩ := by
    have hapart := alone_apart a.rail a.apart s.entered
    rwa [s.entered_clock] at hapart
  obtain ⟨result, hresult⟩ | ⟨code, hresult⟩ := a.settles s.clock
  · -- the function returns, which closes the circuit
    have hown : own.result = .ok result := hresult
    rw [hown] at hfn
    have hsucceeded : own.succeeded = true := by rw [Ended.succeeded, hown]
    have hended : ended = _ := hcall.trans (by rw [alone_protect_ok hfn])
    rw [hended, hsucceeded]
    refine ⟨rfl, rfl, ?_⟩
    have hnext : p.next cb own.circuit.clock true = .closed 0 := by cases p <;> rfl
    rw [hnext]
    exact .recordSuccess s.entered.breaker own.circuit.clock hthreshold
  · -- the rail refuses, which counts as a failure
    have hown : own.result = .error (.railError code) := hresult
    rw [hown] at hfn
    have hsucceeded : own.succeeded = false := by rw [Ended.succeeded, hown]
    have hended : ended = _ := hcall.trans (by rw [alone_protect_railError hfn])
    rw [hended, hsucceeded]
    exact ⟨rfl, rfl, h.recordFailure own.circuit.clock⟩

/-- From keys that simulate a phase, a sequence of calls is decided as the automaton decides it. -/
theorem attend_eq (hthreshold : 1 ≤ cb.failureThreshold) {s : Circuit} {p : Phase}
    (h : Simulates cb s.breaker p) (calls : List (Attempt α)) :
    attend cb s calls = p.attend cb s.clock calls := by
  -- induction over the calls, with the simulation as invariant
  induction calls generalizing s p with
  | nil => rfl
  | cons a rest ih =>
      have hstart : Simulates cb
          ({ s with clock := s.clock + a.pause } : Circuit).breaker p := h
      simp only [attend, Phase.attend]
      by_cases hadmits : p.Admits cb (s.clock + a.pause)
      · obtain ⟨hinvoked, hclock, hnext⟩ := attempt_simulates hthreshold a hstart hadmits
        rw [if_pos hadmits, hinvoked, hnext.state, ih hnext, hclock]
      · obtain ⟨ops, -, hcall⟩ := alone_call_rejected a.rail a.fn
          (fun hcircuit => hadmits (hstart.admits_iff.mp hcircuit))
        rw [if_neg hadmits, hcall, ih hstart, hstart.state]
        rfl

/-- For every threshold of at least one, every cooldown and every sequence of calls that do not
overlap, from empty keys: the calls are decided and the status is shown as by the automaton. -/
theorem sequential_refinement (hthreshold : 1 ≤ cb.failureThreshold) (t₀ : Time)
    (calls : List (Attempt α)) :
    attend cb { clock := t₀ } calls = (Phase.closed 0).attend cb t₀ calls :=
  attend_eq hthreshold (s := { clock := t₀ }) (p := .closed 0)
    ⟨rfl, rfl, by omega, rfl⟩ calls

/-- A payment that is sent at once after a pause. -/
def paymentAfter (pause : ℕ) (fails : Bool) : Attempt String where
  pause := pause
  rail :=
    { duration := fun _ => 0
      result := fun o =>
        match o, fails with
        | .sendWithdrawal _ _ _, false => .ok "reference"
        | _, _ => .error (.railError "TIMEOUT") }
  fn := payment
  apart := ⟨rfl, fun r => by cases r <;> trivial⟩
  settles := by
    intro clock
    cases fails with
    | false => exact .inl ⟨"reference", rfl⟩
    | true => exact .inr ⟨"TIMEOUT", rfl⟩

/-- Two failures open the circuit, a call before the end of the cooldown is rejected, a probe fails,
and after another cooldown a probe closes the circuit. -/
theorem sequential_refinement_probes :
    attend { failureThreshold := 2 } { clock := 0 }
      [paymentAfter 1 true, paymentAfter 1 true, paymentAfter 29999999 false, paymentAfter 1 true,
        paymentAfter 30000000 false] =
      [⟨true, .closed⟩, ⟨true, .open⟩, ⟨false, .open⟩, ⟨true, .open⟩, ⟨true, .closed⟩] :=
  (sequential_refinement (by decide) 0 _).trans (by decide)

end MiniWallet

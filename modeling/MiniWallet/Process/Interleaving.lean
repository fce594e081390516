import Mathlib.Logic.Function.Basic
import Mathlib.Algebra.Order.Ring.Nat
import MiniWallet.Process.Prog

/-!
# Interleaved processes

Any number of processes run programs against a shared state. Each process has a session, the part
of the state that belongs to it: an open transaction, say, with the locks it holds. One step of the
system is one operation of one process, the start of a process, the loss of a process at an
arbitrary point, or a change of the surroundings. Between two operations of a process every other
process may take any number of steps.

* `System`: the operations of a system, with the results they can end with and what they do.
* `Run S ok c₀ c`: `c` is reached from `c₀` by steps that all satisfy `ok`.
* `Run.safe`: if every program that can be started is safe for a contract on its own, then in every
  run every operation is called in a session that meets its guard. `Run.wp` is the same for
  postconditions.
* `Run.invariant`: the induction over runs. It needs one fact for each kind of step, and in the case
  of an operation it may use that the guard holds. `Run.each` and `Run.pairwise` are the same for
  invariants that speak of one session at a time and of two.
* `Run.follow`, `Run.guarded`: a program keeps to its weakest precondition along every run that does
  not stop it. `Run.track` is the same for abstract sessions that keep up with the run.
* `under`, `Run.under`: a run under a condition, as a run of another system, so that a contract may
  use the condition.
* `play`: an executable schedule, for runs that are given explicitly.
-/

namespace Process

/-- The shared state together with the sessions of the processes `0, …, size - 1`. -/
structure World (Shared Sess : Type) where
  /-- What all processes act upon. -/
  shared : Shared
  /-- The session of each process. -/
  sess : ℕ → Sess
  /-- The number of processes started so far. -/
  size : ℕ

/-- The operations of a system of processes. -/
structure System (Op : Type) (Out : Op → Type) (ε α Shared Sess : Type) where
  /-- The session of a process that has not done anything. -/
  idle : Sess
  /-- The results with which the operation of a process can end in a given world. An operation that
  can end with no result has to wait. -/
  enabled : ℕ → (o : Op) → Except ε (Out o) → World Shared Sess → Prop
  /-- The session of the process after its operation. -/
  after : (o : Op) → Except ε (Out o) → Sess → Sess
  /-- What the operation does to the shared state. -/
  effect : (o : Op) → Except ε (Out o) → Sess → Shared → Shared
  /-- Changes of the shared state that no process makes. -/
  env : Shared → Shared → Prop
  /-- The programs that a process can be started with. -/
  start : Prog Op Out ε α → Prop

variable {Op : Type} {Out : Op → Type} {ε α Shared Sess : Type}

/-- What happened in a step. -/
inductive Label (Op : Type) (Out : Op → Type) (ε : Type) : Type where
  | spawn
  | call (i : ℕ) (o : Op) (r : Except ε (Out o))
  | stop (i : ℕ)
  | env

/-- A world together with the programs that the processes still have to run. A process that has
stopped has no program. -/
structure Config (Op : Type) (Out : Op → Type) (ε α Shared Sess : Type)
    extends World Shared Sess where
  /-- The rest of the program of each process. -/
  pool : ℕ → Option (Prog Op Out ε α)

/-- What a step does to the abstract session of process `i`. -/
def Label.advance {Op : Type} {Out : Op → Type} {ε Abs : Type} (i : ℕ)
    (step : (o : Op) → Except ε (Out o) → Abs → Abs) : Label Op Out ε → Abs → Abs
  | .call j o r, a => if j = i then step o r a else a
  | _, a => a

/-- An operation of the process itself moves its abstract session on. -/
theorem Label.advance_call {Op : Type} {Out : Op → Type} {ε Abs : Type} {i : ℕ}
    {step : (o : Op) → Except ε (Out o) → Abs → Abs} {o : Op} {r : Except ε (Out o)} {a : Abs} :
    (Label.call i o r).advance i step a = step o r a :=
  if_pos rfl

/-- An operation of another process leaves it alone. -/
theorem Label.advance_of_ne {Op : Type} {Out : Op → Type} {ε Abs : Type} {i j : ℕ}
    {step : (o : Op) → Except ε (Out o) → Abs → Abs} {o : Op} {r : Except ε (Out o)} {a : Abs}
    (h : j ≠ i) : (Label.call j o r).advance i step a = a :=
  if_neg h

namespace System

variable (S : System Op Out ε α Shared Sess)

/-- The world after process `i` has finished operation `o` with result `r`. -/
def afterCall (w : World Shared Sess) (i : ℕ) (o : Op) (r : Except ε (Out o)) :
    World Shared Sess where
  shared := S.effect o r (w.sess i) w.shared
  sess := Function.update w.sess i (S.after o r (w.sess i))
  size := w.size

/-- The world after process `i` has ended, whether it crashed or ran to its end. -/
def afterStop (w : World Shared Sess) (i : ℕ) : World Shared Sess :=
  { w with sess := Function.update w.sess i S.idle }

/-- The configuration in which no process has been started. -/
def initial (s : Shared) : Config Op Out ε α Shared Sess where
  shared := s
  sess := fun _ => S.idle
  size := 0
  pool := fun _ => none

/-- One step of the system. -/
inductive Step : Config Op Out ε α Shared Sess → Label Op Out ε →
    Config Op Out ε α Shared Sess → Prop
  | spawn {c : Config Op Out ε α Shared Sess} {p : Prog Op Out ε α} : S.start p →
      Step c .spawn { c with size := c.size + 1, pool := Function.update c.pool c.size (some p) }
  -- the operation takes effect and is answered in one step
  | call {c : Config Op Out ε α Shared Sess} {i : ℕ} {o : Op}
      {next : Except ε (Out o) → Prog Op Out ε α} {r : Except ε (Out o)} :
      c.pool i = some (.call o next) → S.enabled i o r c.toWorld →
      Step c (.call i o r)
        { S.afterCall c.toWorld i o r with pool := Function.update c.pool i (some (next r)) }
  -- a process may be lost at any point of its program
  | stop {c : Config Op Out ε α Shared Sess} {i : ℕ} {p : Prog Op Out ε α} :
      c.pool i = some p →
      Step c (.stop i) { S.afterStop c.toWorld i with pool := Function.update c.pool i none }
  | env {c : Config Op Out ε α Shared Sess} {s : Shared} : S.env c.shared s →
      Step c .env { c with shared := s }

/-- `S.Run ok c₀ c`: the configuration `c` is reached from `c₀` by steps that all satisfy `ok`, a
condition on the world before the step and the step's label. -/
inductive Run (ok : World Shared Sess → Label Op Out ε → Prop)
    (c₀ : Config Op Out ε α Shared Sess) : Config Op Out ε α Shared Sess → Prop
  | refl : Run ok c₀ c₀
  | step {c c' : Config Op Out ε α Shared Sess} {l : Label Op Out ε} :
      Run ok c₀ c → ok c.toWorld l → S.Step c l c' → Run ok c₀ c'

/-- The condition that every step satisfies. -/
def anyStep : World Shared Sess → Label Op Out ε → Prop := fun _ _ => True

/-- Whether a step satisfies no condition at all is decidable. -/
instance (w : World Shared Sess) (l : Label Op Out ε) : Decidable (anyStep w l) :=
  inferInstanceAs (Decidable True)

variable {S} {ok ok' : World Shared Sess → Label Op Out ε → Prop}
  {c₀ c c' : Config Op Out ε α Shared Sess}

/-- A run under a condition is a run under every weaker one. -/
theorem Run.mono (h : S.Run ok c₀ c) (hok : ∀ w l, ok w l → ok' w l) : S.Run ok' c₀ c := by
  induction h with
  | refl => exact .refl
  | step _ hl hs ih => exact .step ih (hok _ _ hl) hs

/-- Runs compose. -/
theorem Run.trans (h : S.Run ok c₀ c) (h' : S.Run ok c c') : S.Run ok c₀ c' := by
  induction h' with
  | refl => exact h
  | step _ hl hs ih => exact .step ih hl hs

/-- What is true of every configuration of a run about processes that do not exist yet. -/
structure Fresh (S : System Op Out ε α Shared Sess) (c : Config Op Out ε α Shared Sess) :
    Prop where
  /-- A process that has not been started has an idle session. -/
  sess_idle : ∀ i, c.size ≤ i → c.sess i = S.idle
  /-- A process that has not been started has no program. -/
  pool_none : ∀ i, c.size ≤ i → c.pool i = none

/-- A process with a program has been started. -/
theorem Fresh.lt_size (h : Fresh S c) {i : ℕ} {p : Prog Op Out ε α} (hp : c.pool i = some p) :
    i < c.size := by
  by_contra hlt
  rw [h.pool_none i (not_lt.mp hlt)] at hp
  cases hp

/-- Steps keep processes that have not been started untouched. -/
theorem Fresh.step {l : Label Op Out ε} (h : Fresh S c) (hs : S.Step c l c') : Fresh S c' := by
  cases hs with
  | spawn hp =>
      -- the new process takes the first number that is not in use
      refine ⟨fun i hi => h.sess_idle i (Nat.le_of_succ_le hi), fun i hi => ?_⟩
      have hne : i ≠ c.size := by rintro rfl; exact absurd hi (Nat.not_succ_le_self _)
      simpa [hne] using h.pool_none i (Nat.le_of_succ_le hi)
  | @call i o next r hp hr =>
      -- only a process in the pool takes a step
      have hlt := h.lt_size hp
      refine ⟨fun j hj => ?_, fun j hj => ?_⟩ <;>
        have hne : j ≠ i := by rintro rfl; exact absurd hlt (not_lt.mpr hj)
      · simpa [afterCall, hne] using h.sess_idle j hj
      · simpa [hne] using h.pool_none j hj
  | @stop i p hp =>
      refine ⟨fun j hj => ?_, fun j hj => ?_⟩
      · by_cases hne : j = i
        · simp [afterStop, hne]
        · simpa [afterStop, hne] using h.sess_idle j hj
      · by_cases hne : j = i
        · simp [hne]
        · simpa [hne] using h.pool_none j hj
  | env _ => exact ⟨h.sess_idle, h.pool_none⟩

/-- Processes are only ever added. -/
theorem Run.size_le (h : S.Run ok c₀ c) : c₀.size ≤ c.size := by
  induction h with
  | refl => exact le_rfl
  | step _ _ hs ih =>
      cases hs with
      | spawn _ => exact Nat.le_succ_of_le ih
      | call _ _ | stop _ | env _ => exact ih

/-- A process that is still there has not been stopped. -/
theorem Run.unstopped (h : S.Run ok c₀ c) {i : ℕ} (hi : i < c₀.size) (hp : (c.pool i).isSome) :
    S.Run (fun w l => ok w l ∧ l ≠ .stop i) c₀ c := by
  induction h with
  | refl => exact .refl
  | @step c c' l hrun hl hs ih =>
      have hlt := hi.trans_le hrun.size_le
      cases hs with
      -- a new process takes an index that was not in use
      | spawn hstart =>
          dsimp only at hp
          rw [Function.update_of_ne hlt.ne] at hp
          exact .step (ih hp) ⟨hl, fun heq => nomatch heq⟩ (.spawn hstart)
      | @call j o next r hj hr =>
          refine .step (ih ?_) ⟨hl, fun heq => nomatch heq⟩ (.call hj hr)
          dsimp only at hp
          by_cases hij : i = j
          · rw [hij, hj]
            rfl
          · rwa [Function.update_of_ne hij] at hp
      -- stopping it is the one step that cannot occur
      | @stop j q hj =>
          dsimp only at hp
          by_cases hij : i = j
          · rw [hij, Function.update_self] at hp
            cases hp
          · rw [Function.update_of_ne hij] at hp
            exact .step (ih hp) ⟨hl, fun heq => hij (Label.stop.inj heq).symm⟩ (.stop hj)
      | env he => exact .step (ih hp) ⟨hl, fun heq => nomatch heq⟩ (.env he)

/-- Every run from a configuration without stray processes reaches only such configurations. -/
theorem Run.fresh (h : S.Run ok c₀ c) (h₀ : Fresh S c₀) : Fresh S c := by
  induction h with
  | refl => exact h₀
  | step _ _ hs ih => exact ih.step hs

/-- At the start no process has been started. -/
theorem fresh_initial (s : Shared) : Fresh S (S.initial s) :=
  ⟨fun _ _ => rfl, fun _ _ => rfl⟩

/-- The contract `C` describes the results of the system's operations in every run from `s`, and
every program that can be started is safe for it from an idle session. -/
structure Abides (S : System Op Out ε α Shared Sess) (C : Contract Op Out ε Sess) (s : Shared) :
    Prop where
  /-- The results of an operation are possible for the contract. -/
  possible : ∀ {c : Config Op Out ε α Shared Sess} {i o r}, S.Run anyStep (S.initial s) c →
    S.enabled i o r c.toWorld → C.possible o r (c.sess i)
  /-- The programs of the system are safe. -/
  safe : ∀ {p}, S.start p → C.Safe S.after p S.idle

/-- Every system abides by the contract that asks for nothing and promises nothing. -/
theorem abides_any (s : Shared) : S.Abides (.any Op Out ε Sess) s where
  possible := fun _ _ => trivial
  safe := fun _ => Contract.safe_any _ _ _

/-- A run under a condition is a run. -/
theorem Run.any (h : S.Run ok c₀ c) : S.Run anyStep c₀ c :=
  h.mono fun _ _ _ => trivial

/-- The system in which an operation can end only in a step that satisfies `ok`. -/
def under (S : System Op Out ε α Shared Sess) (ok : World Shared Sess → Label Op Out ε → Prop) :
    System Op Out ε α Shared Sess :=
  { S with enabled := fun i o r w => S.enabled i o r w ∧ ok w (.call i o r) }

/-- A step that satisfies the condition is one of the system that keeps to the condition. -/
theorem Step.under {l : Label Op Out ε} (hs : S.Step c l c') (hl : ok c.toWorld l) :
    (S.under ok).Step c l c' := by
  cases hs with
  | spawn hp => exact .spawn hp
  | call hp hr => exact .call hp ⟨hr, hl⟩
  | stop hp => exact .stop hp
  | env he => exact .env he

/-- A run under a condition is a run of the system that keeps to the condition. -/
theorem Run.under (h : S.Run ok c₀ c) : (S.under ok).Run anyStep c₀ c := by
  induction h with
  | refl => exact .refl
  | step _ hl hs ih => exact .step ih trivial (hs.under hl)

/-- In every run the rest of each program leads to the postconditions that all programs lead to. -/
theorem Run.wp {C : Contract Op Out ε Sess} {s : Shared} {Q : α → Sess → Prop} {R : ε → Sess → Prop}
    (hpossible : ∀ {c : Config Op Out ε α Shared Sess} {i o r}, S.Run ok (S.initial s) c →
      ok c.toWorld (.call i o r) → S.enabled i o r c.toWorld → C.possible o r (c.sess i))
    (hstart : ∀ {p}, S.start p → C.wp S.after p Q R S.idle) (h : S.Run ok (S.initial s) c) {i : ℕ}
    {p : Prog Op Out ε α} (hp : c.pool i = some p) : C.wp S.after p Q R (c.sess i) := by
  induction h generalizing i p with
  | refl => cases hp
  | @step c c' l hrun hl hs ih =>
      cases hs with
      -- a new process starts in the idle session
      | spawn hp' =>
          dsimp only at hp ⊢
          by_cases hi : i = c.size
          · subst hi
            rw [Function.update_self] at hp
            cases hp
            rw [(hrun.fresh (fresh_initial s)).sess_idle c.size le_rfl]
            exact hstart hp'
          · rw [Function.update_of_ne hi] at hp
            exact ih hp
      -- the operation of the process itself is what its contract speaks of
      | @call j o next r hj hr =>
          dsimp only [afterCall] at hp ⊢
          by_cases hi : i = j
          · subst hi
            rw [Function.update_self] at hp ⊢
            cases hp
            exact ((C.wp_call S.after).mp (ih hj)).2 r (hpossible hrun hl hr)
          · rw [Function.update_of_ne hi] at hp ⊢
            exact ih hp
      | @stop j q hj =>
          dsimp only [afterStop] at hp ⊢
          by_cases hi : i = j
          · subst hi
            rw [Function.update_self] at hp
            cases hp
          · rw [Function.update_of_ne hi] at hp ⊢
            exact ih hp
      | env _ => exact ih hp

/-- In every run the rest of each program is safe from the session its process has reached. -/
theorem Run.safe {C : Contract Op Out ε Sess} {s : Shared} (hC : S.Abides C s)
    (h : S.Run ok (S.initial s) c) {i : ℕ} {p : Prog Op Out ε α} (hp : c.pool i = some p) :
    C.Safe S.after p (c.sess i) :=
  h.wp (fun hrun _ hr => hC.possible hrun.any hr) hC.safe hp

/-- In a run from `s` under the condition `ok`, process `i` calls `o` in configuration `c`, under
the guard of the contract, and `o` ends with `r`. -/
structure Call (S : System Op Out ε α Shared Sess) (C : Contract Op Out ε Sess)
    (ok : World Shared Sess → Label Op Out ε → Prop) (s : Shared)
    (c : Config Op Out ε α Shared Sess) (i : ℕ) (o : Op) (r : Except ε (Out o)) : Prop where
  run : S.Run ok (S.initial s) c
  allowed : ok c.toWorld (.call i o r)
  lt_size : i < c.size
  guard : C.guard o (c.sess i)
  enabled : S.enabled i o r c.toWorld

/-- In every run an operation is called under the guard of a contract that the system abides by. -/
theorem Run.call {C : Contract Op Out ε Sess} {s : Shared} (hC : S.Abides C s)
    (h : S.Run ok (S.initial s) c) {i : ℕ} {o : Op} {next : Except ε (Out o) → Prog Op Out ε α}
    {r : Except ε (Out o)} (hp : c.pool i = some (.call o next)) (hr : S.enabled i o r c.toWorld)
    (hl : ok c.toWorld (.call i o r)) : S.Call C ok s c i o r where
  run := h
  allowed := hl
  lt_size := (h.fresh (fresh_initial s)).lt_size hp
  guard := ((C.wp_call S.after).mp (h.safe hC hp)).1
  enabled := hr

/-- The facts that make `I` an invariant of the runs of `S` under the condition `ok`. Each of them
may use that the configuration before the step is reached by a run. -/
structure Preserves (S : System Op Out ε α Shared Sess) (C : Contract Op Out ε Sess)
    (ok : World Shared Sess → Label Op Out ε → Prop) (s : Shared)
    (I : World Shared Sess → Prop) : Prop where
  /-- The invariant holds at the start. -/
  init : I (S.initial s).toWorld
  /-- Starting a process keeps it. -/
  spawn : ∀ {c : Config Op Out ε α Shared Sess}, S.Run ok (S.initial s) c → I c.toWorld →
    I { c.toWorld with size := c.size + 1 }
  /-- An operation that is called under its guard keeps it. -/
  call : ∀ {c : Config Op Out ε α Shared Sess} {i : ℕ} {o : Op} {r : Except ε (Out o)},
    S.Call C ok s c i o r → I c.toWorld → I (S.afterCall c.toWorld i o r)
  /-- The end of a process keeps it. -/
  stop : ∀ {c : Config Op Out ε α Shared Sess} {i : ℕ}, S.Run ok (S.initial s) c → I c.toWorld →
    ok c.toWorld (.stop i) → I (S.afterStop c.toWorld i)
  /-- The surroundings keep it. -/
  env : ∀ {c : Config Op Out ε α Shared Sess} {s' : Shared}, S.Run ok (S.initial s) c →
    I c.toWorld → S.env c.shared s' → I { c.toWorld with shared := s' }

/-- Induction over runs: what every step keeps holds in every configuration reached. -/
theorem Run.invariant {C : Contract Op Out ε Sess} {s : Shared} (hC : S.Abides C s)
    {I : World Shared Sess → Prop} (hI : S.Preserves C ok s I)
    (h : S.Run ok (S.initial s) c) : I c.toWorld := by
  induction h with
  | refl => exact hI.init
  | @step c c' l hrun hl hs ih =>
      cases hs with
      | spawn _ => exact hI.spawn hrun ih
      | call hp hr => exact hI.call (hrun.call hC hp hr hl) ih
      | stop hp => exact hI.stop hrun ih hl
      | env he => exact hI.env hrun ih he

/-- Induction over the later part of a run: a preorder that every step respects relates what is
shared at two points of a run. -/
theorem Run.monotone {C : Contract Op Out ε Sess} {s : Shared} (hC : S.Abides C s)
    {R : Shared → Shared → Prop} (hrefl : ∀ s, R s s) (htrans : ∀ {a b c}, R a b → R b c → R a c)
    (hcall : ∀ {c : Config Op Out ε α Shared Sess} {i : ℕ} {o : Op} {r : Except ε (Out o)},
      S.Call C ok s c i o r → R c.shared (S.effect o r (c.sess i) c.shared))
    (henv : ∀ {a b}, S.env a b → R a b) (h : S.Run ok (S.initial s) c) (h' : S.Run ok c c') :
    R c.shared c'.shared := by
  induction h' with
  | refl => exact hrefl _
  | step hrun hl hs ih =>
      refine htrans ih ?_
      cases hs with
      | spawn _ | stop _ => exact hrefl _
      | call hp hr => exact hcall ((h.trans hrun).call hC hp hr hl)
      | env he => exact henv he

/-- A run under one condition is a run under another one that follows from it in every configuration
that the run can reach. -/
theorem Run.imp (h : S.Run ok c₀ c)
    (himp : ∀ {c : Config Op Out ε α Shared Sess} {l}, S.Run ok c₀ c → ok c.toWorld l →
      ok' c.toWorld l) : S.Run ok' c₀ c := by
  induction h with
  | refl => exact .refl
  | step hrun hl hs ih => exact .step ih (himp hrun hl) hs

/-- The facts that make `J` an invariant of every session, together with the shared state. -/
structure PreservesEach (S : System Op Out ε α Shared Sess) (C : Contract Op Out ε Sess)
    (ok : World Shared Sess → Label Op Out ε → Prop) (s : Shared)
    (J : Shared → Sess → Prop) : Prop where
  /-- The invariant holds at the start. -/
  init : J s S.idle
  /-- The session that calls an operation keeps it. -/
  own : ∀ {c : Config Op Out ε α Shared Sess} {i : ℕ} {o : Op} {r : Except ε (Out o)},
    S.Call C ok s c i o r → (∀ j, J c.shared (c.sess j)) →
    J (S.effect o r (c.sess i) c.shared) (S.after o r (c.sess i))
  /-- The other sessions keep it. -/
  other : ∀ {c : Config Op Out ε α Shared Sess} {i : ℕ} {o : Op} {r : Except ε (Out o)} {j : ℕ},
    S.Call C ok s c i o r → (∀ j, J c.shared (c.sess j)) → j ≠ i →
    J (S.effect o r (c.sess i) c.shared) (c.sess j)
  /-- The surroundings keep it. -/
  env : ∀ {c : Config Op Out ε α Shared Sess} {s' : Shared} {σ : Sess},
    S.Run ok (S.initial s) c → J c.shared σ → S.env c.shared s' → J s' σ

/-- An invariant of every session is an invariant. -/
theorem PreservesEach.preserves {C : Contract Op Out ε Sess} {s : Shared}
    {J : Shared → Sess → Prop} (h : S.PreservesEach C ok s J) :
    S.Preserves C ok s fun w => ∀ i, J w.shared (w.sess i) where
  init := fun _ => h.init
  spawn := fun _ hJ => hJ
  call := by
    intro c i o r hcall hJ j
    by_cases hj : j = i
    · subst hj
      simpa [afterCall] using h.own hcall hJ
    · simpa [afterCall, hj] using h.other hcall hJ hj
  stop := by
    intro c i hrun hJ _ j
    by_cases hj : j = i
    · subst hj
      -- there is always an idle session: the one of the next process to start
      have hidle := hJ c.size
      rw [(hrun.fresh (fresh_initial s)).sess_idle c.size le_rfl] at hidle
      simpa [afterStop] using hidle
    · simpa [afterStop, hj] using hJ j
  env := fun hrun hJ he i => h.env hrun (hJ i) he

/-- Induction over runs for an invariant of every session. -/
theorem Run.each {C : Contract Op Out ε Sess} {s : Shared} (hC : S.Abides C s)
    {J : Shared → Sess → Prop} (hJ : S.PreservesEach C ok s J) (h : S.Run ok (S.initial s) c)
    (i : ℕ) : J c.shared (c.sess i) :=
  h.invariant hC hJ.preserves i

/-- Induction over runs for a relation between any two sessions. It is enough that a session which
calls an operation stays related to the others, in both directions. -/
theorem Run.pairwise {C : Contract Op Out ε Sess} {s : Shared} (hC : S.Abides C s)
    {K : Sess → Sess → Prop} (hsymm : ∀ {σ σ'}, K σ σ' → K σ' σ) (hidle : ∀ σ, K S.idle σ)
    (hcall : ∀ {c : Config Op Out ε α Shared Sess} {i j : ℕ} {o : Op} {r : Except ε (Out o)},
      S.Call C ok s c i o r → j ≠ i → K (c.sess i) (c.sess j) →
      K (S.after o r (c.sess i)) (c.sess j))
    (h : S.Run ok (S.initial s) c) {i j : ℕ} (hij : i ≠ j) : K (c.sess i) (c.sess j) := by
  -- the pairs of which neither one acts are related as before
  have hI : S.Preserves C ok s fun w => ∀ i j, i ≠ j → K (w.sess i) (w.sess j) :=
    { init := fun _ _ _ => hidle _
      spawn := fun _ hK => hK
      call := by
        intro c i o r hc hK a b hab
        by_cases ha : a = i
        · subst ha
          have hb : b ≠ a := fun h => hab h.symm
          simpa [afterCall, hb] using hcall hc hb (hK a b hab)
        · -- the other one of the two has acted
          by_cases hb : b = i
          · subst hb
            simpa [afterCall, hab] using hsymm (hcall hc hab (hK b a fun h => hab h.symm))
          · simpa [afterCall, ha, hb] using hK a b hab
      stop := by
        intro c i _ hK _ a b hab
        by_cases ha : a = i
        · subst ha
          have hb : b ≠ a := fun h => hab h.symm
          simpa [afterStop, hb] using hidle _
        · by_cases hb : b = i
          · subst hb
            simpa [afterStop, hab] using hsymm (hidle _)
          · simpa [afterStop, ha, hb] using hK a b hab
      env := fun _ hK _ => hK }
  exact h.invariant hC hI i j hij

/-! ## Following one process -/

/-- The configuration after a process has been started with program `p`. -/
def spawned (c : Config Op Out ε α Shared Sess) (p : Prog Op Out ε α) :
    Config Op Out ε α Shared Sess :=
  { c with size := c.size + 1, pool := Function.update c.pool c.size (some p) }

/-- The contract of process `i` in the worlds that satisfy `P`: it calls operations that satisfy
`guard`, and they end as they can end in such a world by a step that satisfies `ok`. -/
def within (S : System Op Out ε α Shared Sess) (ok : World Shared Sess → Label Op Out ε → Prop)
    (P : World Shared Sess → Prop) (i : ℕ) (guard : Op → Prop) : Contract Op Out ε Sess where
  guard := fun o _ => guard o
  possible := fun o r σ => ∃ w, P w ∧ w.sess i = σ ∧ S.enabled i o r w ∧ ok w (.call i o r)

/-- The contract of process `i` in the worlds that are related to its abstract session by `At`. -/
def alongside {Abs : Type} (S : System Op Out ε α Shared Sess)
    (ok : World Shared Sess → Label Op Out ε → Prop) (At : Abs → World Shared Sess → Prop) (i : ℕ)
    (guard : Op → Prop) : Contract Op Out ε Abs where
  guard := fun o _ => guard o
  possible := fun o r a => ∃ w, At a w ∧ S.enabled i o r w ∧ ok w (.call i o r)

section Follow

variable {P : World Shared Sess → Prop} {i : ℕ} {guard : Op → Prop} {Q : α → Sess → Prop}
  {R : ε → Sess → Prop} {p : Prog Op Out ε α}

section Track

variable {Abs : Type} {At : Abs → World Shared Sess → Prop}
  {step : (o : Op) → Except ε (Out o) → Abs → Abs} {QA : α → Abs → Prop} {RA : ε → Abs → Prop}
  {a : Abs}

/-- A process that is not stopped keeps to its weakest precondition over abstract sessions, if they
stay related to the configurations of the run. -/
theorem Run.track
    (hAt : ∀ {a : Abs} {c c' : Config Op Out ε α Shared Sess} {l : Label Op Out ε},
      S.Run ok c₀ c → ok c.toWorld l → S.Step c l c' → At a c.toWorld →
        At (l.advance i step a) c'.toWorld)
    (hok : ∀ w, ¬ ok w (.stop i)) (hfresh : Fresh S c₀) (hp : c₀.pool i = some p)
    (ha : At a c₀.toWorld) (hwp : (S.alongside ok At i guard).wp step p QA RA a)
    (h : S.Run ok c₀ c) :
    ∃ p' a', c.pool i = some p' ∧ At a' c.toWorld ∧
      (S.alongside ok At i guard).wp step p' QA RA a' := by
  induction h with
  | refl => exact ⟨p, a, hp, ha, hwp⟩
  | @step c c' l hrun hl hs ih =>
      obtain ⟨p', a', hp', ha', hwp'⟩ := ih
      have hnext := hAt hrun hl hs ha'
      -- the abstract session moves with every step, its own or of others
      cases hs with
      | spawn _ =>
          have hne : i ≠ c.size := ((hrun.fresh hfresh).lt_size hp').ne
          exact ⟨p', a', by simpa [hne] using hp', hnext, hwp'⟩
      -- an operation of the process itself
      | @call j o next r hj hr =>
          by_cases hij : j = i
          · subst hij
            rw [hp'] at hj
            cases hj
            rw [Label.advance_call] at hnext
            refine ⟨next r, step o r a', by simp, hnext, ?_⟩
            exact ((Contract.wp_call _ _).mp hwp').2 r ⟨c.toWorld, ha', hr, hl⟩
          · have hne : i ≠ j := fun h => hij h.symm
            rw [Label.advance_of_ne hij] at hnext
            exact ⟨p', a', by simpa [hne] using hp', hnext, hwp'⟩
      -- the process is not stopped by assumption
      | @stop j q hj =>
          have hne : i ≠ j := by
            rintro rfl
            exact hok _ hl
          exact ⟨p', a', by simpa [hne] using hp', hnext, hwp'⟩
      | env _ => exact ⟨p', a', hp', hnext, hwp'⟩

/-- Such a process calls only operations that satisfy its guard. -/
theorem Run.track_guarded
    (hAt : ∀ {a : Abs} {c c' : Config Op Out ε α Shared Sess} {l : Label Op Out ε},
      S.Run ok c₀ c → ok c.toWorld l → S.Step c l c' → At a c.toWorld →
        At (l.advance i step a) c'.toWorld)
    (hok : ∀ w, ¬ ok w (.stop i)) (hfresh : Fresh S c₀) (hp : c₀.pool i = some p)
    (ha : At a c₀.toWorld) (hwp : (S.alongside ok At i guard).wp step p QA RA a)
    (h : S.Run ok c₀ c) :
    S.Run (fun w l => ok w l ∧ ∀ o r, l = .call i o r → guard o) c₀ c := by
  induction h with
  | refl => exact .refl
  | @step c c' l hrun hl hs ih =>
      refine .step ih ⟨hl, fun o r hlabel => ?_⟩ hs
      -- what is left of the program satisfies the contract up to the call
      obtain ⟨p', a', hp', -, hwp'⟩ := hrun.track hAt hok hfresh hp ha hwp
      cases hs with
      | @call j o' next r' hj hr =>
          cases hlabel
          rw [hp'] at hj
          cases hj
          exact ((Contract.wp_call _ _).mp hwp').1
      | _ => cases hlabel

end Track

/-- The contract of a process in the worlds that satisfy `P` relates the process to its own
session. -/
theorem within_eq : S.within ok P i guard =
    S.alongside ok (fun σ w => P w ∧ w.sess i = σ) i guard := by
  simp only [within, alongside, and_assoc]

/-- The session of a process follows the steps of a run. -/
theorem Run.advance_sess (hP : ∀ {c : Config Op Out ε α Shared Sess}, S.Run ok c₀ c → P c.toWorld)
    (hok : ∀ w, ¬ ok w (.stop i)) {σ : Sess} {c' : Config Op Out ε α Shared Sess}
    {l : Label Op Out ε} (hrun : S.Run ok c₀ c) (hl : ok c.toWorld l) (hs : S.Step c l c')
    (hσ : P c.toWorld ∧ c.sess i = σ) : P c'.toWorld ∧ c'.sess i = l.advance i S.after σ := by
  refine ⟨hP (hrun.step hl hs), ?_⟩
  rw [← hσ.2]
  cases hs with
  -- only an operation of the process itself or its loss changes its session
  | spawn _ => rfl
  | @call j o next r hj hr =>
      by_cases hij : j = i
      · subst hij
        rw [Label.advance_call]
        simp [afterCall]
      · rw [Label.advance_of_ne hij]
        simp [afterCall, Ne.symm hij]
  | @stop j q hj =>
      have hne : i ≠ j := by
        rintro rfl
        exact hok _ hl
      simp [afterStop, hne, Label.advance]
  | env _ => rfl

/-- A process that is not stopped keeps to its weakest precondition, if the configurations of the
run satisfy `P`. -/
theorem Run.follow (hP : ∀ {c : Config Op Out ε α Shared Sess}, S.Run ok c₀ c → P c.toWorld)
    (hok : ∀ w, ¬ ok w (.stop i)) (hfresh : Fresh S c₀) (hp : c₀.pool i = some p)
    (hwp : (S.within ok P i guard).wp S.after p Q R (c₀.sess i)) (h : S.Run ok c₀ c) :
    ∃ p', c.pool i = some p' ∧ (S.within ok P i guard).wp S.after p' Q R (c.sess i) := by
  rw [within_eq] at hwp ⊢
  obtain ⟨p', σ, hp', ⟨-, rfl⟩, hwp'⟩ :=
    h.track (fun hrun hl hs hσ => hrun.advance_sess hP hok hl hs hσ) hok hfresh hp
      ⟨hP .refl, rfl⟩ hwp
  exact ⟨p', hp', hwp'⟩

/-- A process that is not stopped calls only operations that satisfy its guard. -/
theorem Run.guarded (hP : ∀ {c : Config Op Out ε α Shared Sess}, S.Run ok c₀ c → P c.toWorld)
    (hok : ∀ w, ¬ ok w (.stop i)) (hfresh : Fresh S c₀) (hp : c₀.pool i = some p)
    (hwp : (S.within ok P i guard).wp S.after p Q R (c₀.sess i)) (h : S.Run ok c₀ c) :
    S.Run (fun w l => ok w l ∧ ∀ o r, l = .call i o r → guard o) c₀ c := by
  rw [within_eq] at hwp
  exact h.track_guarded (fun hrun hl hs hσ => hrun.advance_sess hP hok hl hs hσ) hok hfresh hp
    ⟨hP .refl, rfl⟩ hwp

end Follow

/-! ## Explicit schedules -/

/-- One move of a schedule, with a hint that settles what the semantics leaves open. -/
inductive Move (Hint : Type) : Type where
  | spawn (hint : Hint)
  | call (i : ℕ) (hint : Hint)
  | stop (i : ℕ)
  | env (hint : Hint)

/-- How hints choose among the steps of the system. -/
structure Player (S : System Op Out ε α Shared Sess) (Hint : Type) where
  /-- The program to start. -/
  spawn : Hint → Option { p : Prog Op Out ε α // S.start p }
  /-- The result with which an operation ends. -/
  call : Hint → (i : ℕ) → (o : Op) → (w : World Shared Sess) →
    Option { r : Except ε (Out o) // S.enabled i o r w }
  /-- The change of the surroundings. -/
  env : Hint → (s : Shared) → Option { s' : Shared // S.env s s' }

variable {Hint : Type}

/-- Make one move, if the schedule allows it. The result says which step it was. -/
def playMove (P : S.Player Hint) (c : Config Op Out ε α Shared Sess) :
    Move Hint → Option (Label Op Out ε × Config Op Out ε α Shared Sess)
  | .spawn hint =>
      match P.spawn hint with
      | some p => some (.spawn, { c with size := c.size + 1,
                                         pool := Function.update c.pool c.size (some p.1) })
      | none => none
  | .call i hint =>
      match c.pool i with
      | some (.call o next) =>
          match P.call hint i o c.toWorld with
          | some r => some (.call i o r.1, { S.afterCall c.toWorld i o r.1 with
                                               pool := Function.update c.pool i (some (next r.1)) })
          | none => none
      | _ => none
  | .stop i =>
      match c.pool i with
      | some _ =>
          some (.stop i, { S.afterStop c.toWorld i with pool := Function.update c.pool i none })
      | none => none
  | .env hint =>
      match P.env hint c.shared with
      | some s => some (.env, { c with shared := s.1 })
      | none => none

section Play

variable (ok) [∀ w l, Decidable (ok w l)]

/-- Make the moves of a schedule in order, as long as their steps satisfy `ok`. -/
def play (P : S.Player Hint) :
    Config Op Out ε α Shared Sess → List (Move Hint) → Option (Config Op Out ε α Shared Sess)
  | c, [] => some c
  | c, m :: ms =>
      match playMove P c m with
      | some (l, c') => if ok c.toWorld l then play P c' ms else none
      | none => none

end Play

/-- A move that can be made is a step. -/
theorem playMove_step {P : S.Player Hint} {m : Move Hint} {l : Label Op Out ε}
    (h : playMove P c m = some (l, c')) : S.Step c l c' := by
  -- each kind of move, and the hint that it needs
  cases m with
  | spawn hint =>
      simp only [playMove] at h
      split at h
      next p _ => cases h; exact .spawn p.2
      next => cases h
  | call i hint =>
      simp only [playMove] at h
      split at h
      next o next hp =>
        split at h
        next r _ => cases h; exact .call hp r.2
        next => cases h
      next => cases h
  | stop i =>
      simp only [playMove] at h
      split at h
      next p hp => cases h; exact .stop hp
      next => cases h
  | env hint =>
      simp only [playMove] at h
      split at h
      next s _ => cases h; exact .env s.2
      next => cases h

/-- A schedule that can be played is a run. -/
theorem run_of_play [∀ w l, Decidable (ok w l)] {P : S.Player Hint} {ms : List (Move Hint)}
    (h : play ok P c ms = some c') : S.Run ok c c' := by
  induction ms generalizing c with
  | nil => cases h; exact .refl
  | cons m ms ih =>
      simp only [play] at h
      split at h
      next l c₁ hm =>
        split at h
        next hl => exact (Run.step .refl hl (playMove_step hm)).trans (ih h)
        next => cases h
      next => cases h

end System

end Process

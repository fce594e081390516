import MiniWallet.Process.Interleaving

/-!
# Observers

An observer follows a run and keeps a record of it. It sees the world before each step and what
happened in the step, in particular which process acted, and it changes nothing. Properties that
speak of the past of a run, such as who was the last to do something, are stated about its record.

* `Observes O S ok s g c`: a run from `s` has reached `c`, and the observer's record is then `g`.
  The condition `ok` on the steps may look at the record.
* `Observes.invariant`: the induction over observed runs.
* `Observer.Follows`: the record holds an abstract session of every process. `Observes.safe` and
  `Observes.sustained` are the safety of the programs and the induction in terms of these sessions.
* `Continues`, `Continues.sustained`: the rest of an observed run.
* `Observer.Logs`: the record holds what each process has awaited. `Observes.executes`: this is then
  an execution of the program that the process was started with.
* `observe`: an executable schedule, for observed runs that are given explicitly.
-/

namespace Process

/-- How an observer keeps its record. -/
structure Observer (Op : Type) (Out : Op → Type) (ε Shared Sess Record : Type) where
  /-- The record before the first step. -/
  start : Record
  /-- The record after a step, given the world before it. -/
  next : World Shared Sess → Label Op Out ε → Record → Record

variable {Op : Type} {Out : Op → Type} {ε α Shared Sess Record : Type}

/-- `Observes O S ok s g c`: the configuration `c` is reached from `s` by steps that all satisfy
`ok`, and `g` is what the observer has recorded. -/
inductive Observes (O : Observer Op Out ε Shared Sess Record) (S : System Op Out ε α Shared Sess)
    (ok : Record → World Shared Sess → Label Op Out ε → Prop) (s : Shared) :
    Record → Config Op Out ε α Shared Sess → Prop
  | start : Observes O S ok s O.start (S.initial s)
  | step {g : Record} {c c' : Config Op Out ε α Shared Sess} {l : Label Op Out ε} :
      Observes O S ok s g c → ok g c.toWorld l → S.Step c l c' →
      Observes O S ok s (O.next c.toWorld l g) c'

/-- The condition that every step satisfies. -/
def anyObserved : Record → World Shared Sess → Label Op Out ε → Prop := fun _ _ _ => True

/-- Whether an observed step satisfies no condition at all is decidable. -/
instance (g : Record) (w : World Shared Sess) (l : Label Op Out ε) :
    Decidable (anyObserved g w l) :=
  inferInstanceAs (Decidable True)

namespace Observes

variable {O : Observer Op Out ε Shared Sess Record} {S : System Op Out ε α Shared Sess}
  {ok : Record → World Shared Sess → Label Op Out ε → Prop} {s : Shared} {g : Record}
  {c : Config Op Out ε α Shared Sess}

/-- An observed run is a run. -/
theorem run (h : Observes O S ok s g c) : S.Run System.anyStep (S.initial s) c := by
  induction h with
  | start => exact .refl
  | step _ _ hs ih => exact .step ih trivial hs

/-- The facts that make `I` an invariant of the observed runs. -/
structure Preserves (O : Observer Op Out ε Shared Sess Record) (S : System Op Out ε α Shared Sess)
    (C : Contract Op Out ε Sess) (ok : Record → World Shared Sess → Label Op Out ε → Prop)
    (s : Shared) (I : Record → World Shared Sess → Prop) : Prop where
  /-- The invariant holds at the start. -/
  init : I O.start (S.initial s).toWorld
  /-- Starting a process keeps it. -/
  spawn : ∀ {g : Record} {w : World Shared Sess}, I g w →
    I (O.next w .spawn g) { w with size := w.size + 1 }
  /-- An operation that is called under its guard keeps it. -/
  call : ∀ {g : Record} {c : Config Op Out ε α Shared Sess} {i : ℕ} {o : Op} {r : Except ε (Out o)},
    S.Call C System.anyStep s c i o r → ok g c.toWorld (.call i o r) → I g c.toWorld →
    I (O.next c.toWorld (.call i o r) g) (S.afterCall c.toWorld i o r)
  /-- The end of a process keeps it. -/
  stop : ∀ {g : Record} {w : World Shared Sess} {i : ℕ}, I g w →
    I (O.next w (.stop i) g) (S.afterStop w i)
  /-- The surroundings keep it. -/
  env : ∀ {g : Record} {w : World Shared Sess} {s' : Shared}, I g w → S.env w.shared s' →
    I (O.next w .env g) { w with shared := s' }

/-- Induction over observed runs: what every step keeps holds of every record and configuration
reached. -/
theorem invariant {C : Contract Op Out ε Sess} (hC : S.Abides C s)
    {I : Record → World Shared Sess → Prop} (hI : Preserves O S C ok s I)
    (h : Observes O S ok s g c) : I g c.toWorld := by
  induction h with
  | start => exact hI.init
  | @step g c c' l hobs hl hs ih =>
      cases hs with
      | spawn _ => exact hI.spawn ih
      | call hp hr => exact hI.call (hobs.run.call hC hp hr trivial) hl ih
      | stop _ => exact hI.stop ih
      | env he => exact hI.env ih he

end Observes

/-! ## Abstract sessions -/

/-- What a step does to the abstract sessions of the processes. -/
def Label.develop {Abs : Type} (idle : Abs) (step : (o : Op) → Except ε (Out o) → Abs → Abs) :
    Label Op Out ε → (ℕ → Abs) → ℕ → Abs
  | .call i o r, a => Function.update a i (step o r (a i))
  | .stop i, a => Function.update a i idle
  | _, a => a

/-- The record holds an abstract session of every process, which is `idle` at first and develops by
`step`, and the programs of the system are safe for the contract `C` about these sessions. -/
structure Observer.Follows {Abs : Type} (O : Observer Op Out ε Shared Sess Record)
    (S : System Op Out ε α Shared Sess) (C : Contract Op Out ε Abs)
    (step : (o : Op) → Except ε (Out o) → Abs → Abs) (idle : Abs) (view : Record → ℕ → Abs)
    (ok : Record → World Shared Sess → Label Op Out ε → Prop) : Prop where
  /-- Every abstract session is idle at the start. -/
  start : ∀ i, view O.start i = idle
  /-- The record keeps up with the steps. -/
  next : ∀ w l g, view (O.next w l g) = l.develop idle step (view g)
  /-- The results of an operation are possible for the contract. -/
  possible : ∀ {g w i o r}, ok g w (.call i o r) → S.enabled i o r w → C.possible o r (view g i)
  /-- The programs of the system are safe. -/
  safe : ∀ {p}, S.start p → C.Safe step p idle

/-- `Continues O S ok g₀ c₀ g c`: an observed run that has reached `g₀` and `c₀` goes on, by steps
that all satisfy `ok`, to `g` and `c`. -/
inductive Continues (O : Observer Op Out ε Shared Sess Record) (S : System Op Out ε α Shared Sess)
    (ok : Record → World Shared Sess → Label Op Out ε → Prop) (g₀ : Record)
    (c₀ : Config Op Out ε α Shared Sess) : Record → Config Op Out ε α Shared Sess → Prop
  | refl : Continues O S ok g₀ c₀ g₀ c₀
  | step {g : Record} {c c' : Config Op Out ε α Shared Sess} {l : Label Op Out ε} :
      Continues O S ok g₀ c₀ g c → ok g c.toWorld l → S.Step c l c' →
      Continues O S ok g₀ c₀ (O.next c.toWorld l g) c'

section Follows

variable {Abs : Type} {O : Observer Op Out ε Shared Sess Record}
  {S S' : System Op Out ε α Shared Sess} {C : Contract Op Out ε Abs}
  {step : (o : Op) → Except ε (Out o) → Abs → Abs} {idle : Abs} {view : Record → ℕ → Abs}
  {ok ok' : Record → World Shared Sess → Label Op Out ε → Prop} {s : Shared} {g g' : Record}
  {c c' : Config Op Out ε α Shared Sess}

/-- An observed run that goes on is an observed run. -/
theorem Observes.trans (h : Observes O S ok s g c) (h' : Continues O S ok g c g' c') :
    Observes O S ok s g' c' := by
  induction h' with
  | refl => exact h
  | step _ hl hs ih => exact .step ih hl hs

/-- An observed run under one condition is an observed run under every weaker one. -/
theorem Observes.mono (h : Observes O S ok s g c) (hok : ∀ g w l, ok g w l → ok' g w l) :
    Observes O S ok' s g c := by
  induction h with
  | start => exact .start
  | step _ hl hs ih => exact .step ih (hok _ _ _ hl) hs

/-- In an observed run a process that has not been started has an idle abstract session, and the
rest of each program is safe from the abstract session that its process has reached. -/
theorem Observes.safe (hO : O.Follows S C step idle view ok) (h : Observes O S ok s g c) :
    (∀ i, c.size ≤ i → view g i = idle) ∧
      ∀ i p, c.pool i = some p → C.Safe step p (view g i) := by
  induction h with
  | start => exact ⟨fun i _ => hO.start i, fun i p hp => nomatch hp⟩
  | @step g c c' l hobs hl hs ih =>
      have hfresh := hobs.run.fresh (System.fresh_initial s)
      obtain ⟨hidle, hsafe⟩ := ih
      rw [hO.next]
      cases hs with
      -- the process that starts was idle, and its program is safe
      | spawn hstart =>
          refine ⟨fun i hi => hidle i (Nat.le_of_succ_le hi), fun i p hp => ?_⟩
          dsimp only [Label.develop] at hp ⊢
          by_cases hi : i = c.size
          · subst hi
            rw [Function.update_self] at hp
            cases hp
            rw [hidle c.size le_rfl]
            exact hO.safe hstart
          · rw [Function.update_of_ne hi] at hp
            exact hsafe i p hp
      -- the caller goes on with the rest, the others are as before
      | @call j o next r hj hr =>
          have hlt := hfresh.lt_size hj
          dsimp only [Label.develop, System.afterCall]
          refine ⟨fun i hi => ?_, fun i p hp => ?_⟩
          · rw [Function.update_of_ne (by omega)]
            exact hidle i hi
          · by_cases hi : i = j
            · subst hi
              rw [Function.update_self] at hp ⊢
              cases hp
              exact ((C.wp_call step).mp (hsafe i _ hj)).2 r (hO.possible hl hr)
            · rw [Function.update_of_ne hi] at hp ⊢
              exact hsafe i p hp
      -- a process that has stopped has nothing left to run
      | @stop j q hj =>
          dsimp only [Label.develop, System.afterStop]
          refine ⟨fun i hi => ?_, fun i p hp => ?_⟩
          · by_cases hi' : i = j
            · rw [hi', Function.update_self]
            · rw [Function.update_of_ne hi']
              exact hidle i hi
          · by_cases hi : i = j
            · subst hi
              rw [Function.update_self] at hp
              cases hp
            · rw [Function.update_of_ne hi] at hp ⊢
              exact hsafe i p hp
      | env _ => exact ⟨hidle, hsafe⟩

/-- In an observed run process `i` calls `o` in configuration `c`, under the guard of the contract
about its abstract session, and `o` ends with `r`. -/
structure Observes.Call (O : Observer Op Out ε Shared Sess Record)
    (S : System Op Out ε α Shared Sess) (C : Contract Op Out ε Abs) (view : Record → ℕ → Abs)
    (ok : Record → World Shared Sess → Label Op Out ε → Prop) (s : Shared) (g : Record)
    (c : Config Op Out ε α Shared Sess) (i : ℕ) (o : Op) (r : Except ε (Out o)) : Prop where
  observes : Observes O S ok s g c
  allowed : ok g c.toWorld (.call i o r)
  lt_size : i < c.size
  guard : C.guard o (view g i)
  enabled : S.enabled i o r c.toWorld

/-- In an observed run an operation is called under the guard. -/
theorem Observes.call (hO : O.Follows S C step idle view ok) (h : Observes O S ok s g c) {i : ℕ}
    {o : Op} {next : Except ε (Out o) → Prog Op Out ε α} {r : Except ε (Out o)}
    (hp : c.pool i = some (.call o next)) (hr : S.enabled i o r c.toWorld)
    (hl : ok g c.toWorld (.call i o r)) : Observes.Call O S C view ok s g c i o r where
  observes := h
  allowed := hl
  lt_size := (h.run.fresh (System.fresh_initial s)).lt_size hp
  guard := ((C.wp_call step).mp ((h.safe hO).2 _ _ hp)).1
  enabled := hr

/-- An observed run under one condition is an observed run under another one that follows from it.
It matters only for operations, and there the guard may be used. -/
theorem Observes.imp (hO : O.Follows S C step idle view ok) (h : Observes O S ok s g c)
    (hcall : ∀ {g : Record} {c : Config Op Out ε α Shared Sess} {i : ℕ} {o : Op}
      {r : Except ε (Out o)}, Observes.Call O S C view ok s g c i o r →
      ok' g c.toWorld (.call i o r))
    (hother : ∀ {g : Record} {w : World Shared Sess} {l : Label Op Out ε},
      (∀ i o r, l ≠ .call i o r) → ok g w l → ok' g w l) :
    Observes O S ok' s g c := by
  induction h with
  | start => exact .start
  | step hobs hl hs ih =>
      refine .step ih ?_ hs
      cases hs with
      | call hp hr => exact hcall (hobs.call hO hp hr hl)
      | _ => exact hother (fun _ _ _ h => nomatch h) hl

/-- An observed run of a system is one of every system that can do the same steps. -/
theorem Observes.widen (h : Observes O S ok s g c) (hidle : S.initial s = S'.initial s)
    (hstep : ∀ {c c' : Config Op Out ε α Shared Sess} {l}, S.Step c l c' → S'.Step c l c') :
    Observes O S' ok s g c := by
  induction h with
  | start =>
      rw [hidle]
      exact .start
  | step _ hl hs ih => exact .step ih hl (hstep hs)

/-- The steps of observed runs keep `I`. -/
structure Observes.Sustains (O : Observer Op Out ε Shared Sess Record)
    (S : System Op Out ε α Shared Sess) (C : Contract Op Out ε Abs) (view : Record → ℕ → Abs)
    (ok : Record → World Shared Sess → Label Op Out ε → Prop) (s : Shared)
    (I : Record → World Shared Sess → Prop) : Prop where
  /-- Starting a process keeps it. -/
  spawn : ∀ {g : Record} {c : Config Op Out ε α Shared Sess}, Observes O S ok s g c →
    ok g c.toWorld .spawn → I g c.toWorld →
    I (O.next c.toWorld .spawn g) { c.toWorld with size := c.size + 1 }
  /-- An operation that is called under its guard keeps it. -/
  call : ∀ {g : Record} {c : Config Op Out ε α Shared Sess} {i : ℕ} {o : Op} {r : Except ε (Out o)},
    Observes.Call O S C view ok s g c i o r → I g c.toWorld →
    I (O.next c.toWorld (.call i o r) g) (S.afterCall c.toWorld i o r)
  /-- The end of a process keeps it. -/
  stop : ∀ {g : Record} {c : Config Op Out ε α Shared Sess} {i : ℕ}, Observes O S ok s g c →
    ok g c.toWorld (.stop i) → I g c.toWorld → I (O.next c.toWorld (.stop i) g)
      (S.afterStop c.toWorld i)
  /-- The surroundings keep it. -/
  env : ∀ {g : Record} {c : Config Op Out ε α Shared Sess} {s' : Shared}, Observes O S ok s g c →
    ok g c.toWorld .env → I g c.toWorld → S.env c.shared s' →
    I (O.next c.toWorld .env g) { c.toWorld with shared := s' }

/-- One step of an observed run keeps what all steps keep. -/
theorem Observes.Sustains.keeps {I : Record → World Shared Sess → Prop}
    (hI : Observes.Sustains O S C view ok s I) (hO : O.Follows S C step idle view ok)
    {l : Label Op Out ε} (h : Observes O S ok s g c) (hl : ok g c.toWorld l) (hs : S.Step c l c')
    (hg : I g c.toWorld) : I (O.next c.toWorld l g) c'.toWorld := by
  cases hs with
  | spawn _ => exact hI.spawn h hl hg
  | call hp hr => exact hI.call (h.call hO hp hr hl) hg
  | stop _ => exact hI.stop h hl hg
  | env he => exact hI.env h hl hg he

/-- Induction over observed runs, with the abstract sessions. -/
theorem Observes.sustained {I : Record → World Shared Sess → Prop}
    (hO : O.Follows S C step idle view ok) (hI : Observes.Sustains O S C view ok s I)
    (hinit : I O.start (S.initial s).toWorld) (h : Observes O S ok s g c) : I g c.toWorld := by
  induction h with
  | start => exact hinit
  | step hobs hl hs ih => exact hI.keeps hO hobs hl hs ih

/-- Induction over the rest of an observed run. -/
theorem Continues.sustained {I : Record → World Shared Sess → Prop}
    (hO : O.Follows S C step idle view ok) (hI : Observes.Sustains O S C view ok s I)
    (h : Observes O S ok s g c) (hg : I g c.toWorld) (h' : Continues O S ok g c g' c') :
    I g' c'.toWorld := by
  induction h' with
  | refl => exact hg
  | step hcont hl hs ih => exact hI.keeps hO (h.trans hcont) hl hs ih

end Follows

/-! ## Logs -/

/-- What a step adds to the logs of the processes. -/
def Label.log : Label Op Out ε → (ℕ → List ((o : Op) × Except ε (Out o))) →
    ℕ → List ((o : Op) × Except ε (Out o))
  | .call i o r, logs => Function.update logs i (logs i ++ [⟨o, r⟩])
  | _, logs => logs

/-- What is in a log stays there. -/
theorem Label.log_subset (l : Label Op Out ε) (logs : ℕ → List ((o : Op) × Except ε (Out o)))
    (i : ℕ) : logs i ⊆ l.log logs i := by
  cases l with
  | call j o r =>
      rw [Label.log]
      by_cases hi : i = j
      · subst hi
        rw [Function.update_self]
        exact List.subset_append_left _ _
      · rw [Function.update_of_ne hi]
        exact List.Subset.refl _
  | _ => exact List.Subset.refl _

/-- The record holds, for each process, the operations that it has awaited and how they ended. -/
structure Observer.Logs (O : Observer Op Out ε Shared Sess Record)
    (view : Record → ℕ → List ((o : Op) × Except ε (Out o))) : Prop where
  /-- Every log is empty at the start. -/
  start : ∀ i, view O.start i = []
  /-- The record keeps up with the steps. -/
  next : ∀ w l g, view (O.next w l g) = l.log (view g)

section Logs

variable {O : Observer Op Out ε Shared Sess Record} {S : System Op Out ε α Shared Sess}
  {ok : Record → World Shared Sess → Label Op Out ε → Prop} {s : Shared} {g : Record}
  {c : Config Op Out ε α Shared Sess} {view : Record → ℕ → List ((o : Op) × Except ε (Out o))}

/-- The log of a process that has not been started is empty. -/
theorem Observes.log_nil (hO : O.Logs view) (h : Observes O S ok s g c) {i : ℕ} (hi : c.size ≤ i) :
    view g i = [] := by
  induction h with
  | start => exact hO.start i
  | @step g c c' l hobs _ hs ih =>
      rw [hO.next]
      cases hs with
      | spawn _ => exact ih (Nat.le_of_succ_le hi)
      | @call j o next r hj hr =>
          have hlt := (hobs.run.fresh (System.fresh_initial s)).lt_size hj
          have hle : c.size ≤ i := hi
          rw [Label.log, Function.update_of_ne (by omega)]
          exact ih hle
      | stop _ | env _ => exact ih hi

/-- The log of a process is an execution of a program of the system, and as long as the process has
not stopped, what is left of that program is what it still has to run. -/
theorem Observes.executes (hO : O.Logs view) (h : Observes O S ok s g c) :
    ∀ i < c.size, ∃ p p', S.start p ∧ p.Executes (view g i) p' ∧
      ∀ q, c.pool i = some q → q = p' := by
  induction h with
  | start => exact fun i hi => absurd hi (Nat.not_lt_zero i)
  | @step g c c' l hobs _ hs ih =>
      rw [hO.next]
      cases hs with
      -- the log of a new process is empty
      | @spawn p hstart =>
          intro i hi
          dsimp only [Label.log] at hi ⊢
          by_cases hnew : i = c.size
          · subst hnew
            rw [hobs.log_nil hO le_rfl, Function.update_self]
            exact ⟨p, p, hstart, .refl, fun q hq => (Option.some.inj hq).symm⟩
          · rw [Function.update_of_ne hnew]
            exact ih i (by omega)
      -- the entry is appended to the log of the caller
      | @call j o next r hj hr =>
          intro i hi
          obtain ⟨p, p', hstart, hexec, hrest⟩ := ih i hi
          dsimp only [Label.log]
          by_cases hown : i = j
          · subst hown
            rw [Function.update_self, Function.update_self]
            obtain rfl := hrest _ hj
            exact ⟨p, next r, hstart, hexec.snoc r, fun q hq => (Option.some.inj hq).symm⟩
          · rw [Function.update_of_ne hown, Function.update_of_ne hown]
            exact ⟨p, p', hstart, hexec, hrest⟩
      -- what has been logged stays, but nothing is left to run
      | @stop j q hj =>
          intro i hi
          obtain ⟨p, p', hstart, hexec, hrest⟩ := ih i hi
          refine ⟨p, p', hstart, hexec, fun q hq => ?_⟩
          dsimp only [System.afterStop] at hq
          by_cases hown : i = j
          · rw [hown, Function.update_self] at hq
            cases hq
          · rw [Function.update_of_ne hown] at hq
            exact hrest q hq
      | env _ => exact ih

end Logs

/-! ## Explicit schedules -/

section Observe

variable {Hint : Type} {S : System Op Out ε α Shared Sess}

/-- Make the moves of a schedule in order, as long as their steps satisfy `ok`, and record them. -/
def observe (O : Observer Op Out ε Shared Sess Record)
    (ok : Record → World Shared Sess → Label Op Out ε → Prop) [∀ g w l, Decidable (ok g w l)]
    (P : S.Player Hint) : Record → Config Op Out ε α Shared Sess → List (System.Move Hint) →
      Option (Record × Config Op Out ε α Shared Sess)
  | g, c, [] => some (g, c)
  | g, c, m :: ms =>
      match System.playMove P c m with
      | some (l, c') =>
          if ok g c.toWorld l then observe O ok P (O.next c.toWorld l g) c' ms else none
      | none => none

/-- A schedule that can be played continues an observed run. -/
theorem continues_of_observe {O : Observer Op Out ε Shared Sess Record}
    {ok : Record → World Shared Sess → Label Op Out ε → Prop} [∀ g w l, Decidable (ok g w l)]
    {P : S.Player Hint} {g₀ g g' : Record} {c₀ c c' : Config Op Out ε α Shared Sess}
    {ms : List (System.Move Hint)} (h : Continues O S ok g₀ c₀ g c)
    (hplay : observe O ok P g c ms = some (g', c')) : Continues O S ok g₀ c₀ g' c' := by
  induction ms generalizing g c with
  | nil =>
      cases hplay
      exact h
  | cons m ms ih =>
      rw [observe] at hplay
      split at hplay
      · next l c₁ hm =>
          split at hplay
          · next hl => exact ih (.step h hl (System.playMove_step hm)) hplay
          · cases hplay
      · cases hplay

/-- A schedule that can be played gives an observed run. -/
theorem observes_of_observe {O : Observer Op Out ε Shared Sess Record}
    {ok : Record → World Shared Sess → Label Op Out ε → Prop} [∀ g w l, Decidable (ok g w l)]
    {P : S.Player Hint} {s : Shared} {g g' : Record} {c c' : Config Op Out ε α Shared Sess}
    {ms : List (System.Move Hint)} (h : Observes O S ok s g c)
    (hplay : observe O ok P g c ms = some (g', c')) : Observes O S ok s g' c' :=
  h.trans (continues_of_observe .refl hplay)

end Observe

end Process

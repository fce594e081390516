import MiniWallet.Process.Interleaving

/-!
# Where processes come from

When every program of a system is the program of a request, a run can be told together with the
request that each process was started for. What a program promises may then depend on its request.

* `Launched S prog ok s origin c`: a run from `s` has reached `c`, and `origin` says which request
  each process was started for.
* `Run.launched`: every run can be told in this way.
* `Launched.wp`: the rest of each program leads to the postconditions of its request.
* `Launched.invariant`: the induction over such runs. In the case of an operation it may use that
  the guard of the process's own request holds.
-/

namespace Process

namespace System

variable {Op : Type} {Out : Op → Type} {ε α Shared Sess ι : Type}

/-- `Launched S prog ok s origin c`: the configuration `c` is reached from `s` by steps that all
satisfy `ok`, and process `i` was started with the program of the request `origin i`. -/
inductive Launched (S : System Op Out ε α Shared Sess) (prog : ι → Prog Op Out ε α)
    (ok : World Shared Sess → Label Op Out ε → Prop) (s : Shared) :
    (ℕ → Option ι) → Config Op Out ε α Shared Sess → Prop
  | start : Launched S prog ok s (fun _ => none) (S.initial s)
  | spawn {origin : ℕ → Option ι} {c : Config Op Out ε α Shared Sess} {request : ι} :
      Launched S prog ok s origin c → ok c.toWorld .spawn → S.start (prog request) →
      Launched S prog ok s (Function.update origin c.size (some request))
        (spawned c (prog request))
  | step {origin : ℕ → Option ι} {c c' : Config Op Out ε α Shared Sess} {l : Label Op Out ε} :
      Launched S prog ok s origin c → ok c.toWorld l → S.Step c l c' → l ≠ .spawn →
      Launched S prog ok s origin c'

variable {S : System Op Out ε α Shared Sess} {prog : ι → Prog Op Out ε α}
  {ok : World Shared Sess → Label Op Out ε → Prop} {s : Shared} {origin : ℕ → Option ι}
  {c : Config Op Out ε α Shared Sess}

/-- A run that is told with its requests is a run. -/
theorem Launched.run (h : S.Launched prog ok s origin c) : S.Run ok (S.initial s) c := by
  induction h with
  | start => exact .refl
  | spawn _ hl hstart ih => exact .step ih hl (.spawn hstart)
  | step _ hl hs _ ih => exact .step ih hl hs

/-- Every run can be told with its requests, if every program is the program of one. -/
theorem Run.launched (hprog : ∀ p, S.start p → ∃ request, p = prog request)
    (h : S.Run ok (S.initial s) c) : ∃ origin, S.Launched prog ok s origin c := by
  induction h with
  | refl => exact ⟨_, .start⟩
  | @step c c' l _ hl hs ih =>
      obtain ⟨origin, ih⟩ := ih
      cases hs with
      | spawn hstart =>
          obtain ⟨request, rfl⟩ := hprog _ hstart
          exact ⟨_, .spawn ih hl hstart⟩
      | call hp hr => exact ⟨origin, .step ih hl (.call hp hr) (by rintro ⟨⟩)⟩
      | stop hp => exact ⟨origin, .step ih hl (.stop hp) (by rintro ⟨⟩)⟩
      | env he => exact ⟨origin, .step ih hl (.env he) (by rintro ⟨⟩)⟩

/-- Only processes that have been started have a request. -/
theorem Launched.origin_none (h : S.Launched prog ok s origin c) {i : ℕ} (hi : c.size ≤ i) :
    origin i = none := by
  induction h with
  | start => rfl
  | @spawn origin c request _ _ _ ih =>
      have hne : i ≠ c.size := by
        rintro rfl
        exact absurd hi (Nat.not_succ_le_self _)
      rw [Function.update_of_ne hne]
      exact ih (Nat.le_of_succ_le hi)
  | @step origin c c' l hrun hl hs _ ih =>
      -- no step removes a process
      exact ih ((Run.size_le (.step .refl hl hs)).trans hi)

section Contracts

variable {C : ι → Contract Op Out ε Sess} {Q : ι → α → Sess → Prop} {R : ι → ε → Sess → Prop}

/-- In every run the rest of each program leads to the postconditions of the request that its
process was started for. -/
theorem Launched.wp
    (hpossible : ∀ {c : Config Op Out ε α Shared Sess} {request i o r},
      S.Run ok (S.initial s) c → ok c.toWorld (.call i o r) → S.enabled i o r c.toWorld →
      (C request).possible o r (c.sess i))
    (hprog : ∀ request, (C request).wp S.after (prog request) (Q request) (R request) S.idle)
    (h : S.Launched prog ok s origin c) {i : ℕ} {p : Prog Op Out ε α} (hp : c.pool i = some p) :
    ∃ request, origin i = some request ∧
      (C request).wp S.after p (Q request) (R request) (c.sess i) := by
  induction h generalizing i p with
  | start => cases hp
  -- the request is noted together with the program that it starts
  | @spawn origin c request hrun _ _ ih =>
      dsimp only [spawned] at hp ⊢
      by_cases hi : i = c.size
      · subst hi
        rw [Function.update_self] at hp ⊢
        cases hp
        rw [(hrun.run.fresh (fresh_initial s)).sess_idle c.size le_rfl]
        exact ⟨request, rfl, hprog request⟩
      · rw [Function.update_of_ne hi] at hp ⊢
        exact ih hp
  | @step origin c c' l hrun hl hs hne ih =>
      cases hs with
      | spawn _ => exact absurd rfl hne
      -- the step of the process follows its own contract
      | @call j o next r hj hr =>
          dsimp only [afterCall] at hp ⊢
          by_cases hi : i = j
          · subst hi
            rw [Function.update_self] at hp ⊢
            cases hp
            obtain ⟨request, horigin, hwp⟩ := ih hj
            exact ⟨request, horigin,
              (((C request).wp_call S.after).mp hwp).2 r (hpossible hrun.run hl hr)⟩
          · rw [Function.update_of_ne hi] at hp ⊢
            exact ih hp
      | @stop j q hj =>
          dsimp only [afterStop] at hp ⊢
          by_cases hi : i = j
          · subst hi
            rw [Function.update_self] at hp
            cases hp
          · rw [Function.update_of_ne hi] at hp ⊢
            exact ih hp
      | env _ => exact ih hp

/-- In a run that is told with its requests, process `i` calls `o` under the guard of its request,
and `o` ends with `r`. -/
structure Launched.Call (S : System Op Out ε α Shared Sess) (prog : ι → Prog Op Out ε α)
    (C : ι → Contract Op Out ε Sess) (ok : World Shared Sess → Label Op Out ε → Prop) (s : Shared)
    (origin : ℕ → Option ι) (c : Config Op Out ε α Shared Sess) (i : ℕ) (request : ι) (o : Op)
    (r : Except ε (Out o)) : Prop where
  launched : S.Launched prog ok s origin c
  allowed : ok c.toWorld (.call i o r)
  origin : origin i = some request
  guard : (C request).guard o (c.sess i)
  enabled : S.enabled i o r c.toWorld
  awaits : ∃ next, c.pool i = some (.call o next)

/-- The facts that make `I` an invariant of the runs that are told with their requests. -/
structure Launched.Preserves (S : System Op Out ε α Shared Sess) (prog : ι → Prog Op Out ε α)
    (C : ι → Contract Op Out ε Sess) (ok : World Shared Sess → Label Op Out ε → Prop) (s : Shared)
    (I : (ℕ → Option ι) → World Shared Sess → Prop) : Prop where
  /-- The invariant holds at the start. -/
  init : I (fun _ => none) (S.initial s).toWorld
  /-- Starting a process keeps it. -/
  spawn : ∀ {origin : ℕ → Option ι} {c : Config Op Out ε α Shared Sess} {request : ι},
    S.Launched prog ok s origin c → I origin c.toWorld →
    I (Function.update origin c.size (some request)) { c.toWorld with size := c.size + 1 }
  /-- An operation that is called under the guard of its request keeps it. -/
  call : ∀ {origin : ℕ → Option ι} {c : Config Op Out ε α Shared Sess} {i : ℕ} {request : ι}
    {o : Op}
    {r : Except ε (Out o)}, Launched.Call S prog C ok s origin c i request o r →
    I origin c.toWorld → I origin (S.afterCall c.toWorld i o r)
  /-- The end of a process keeps it. -/
  stop : ∀ {origin : ℕ → Option ι} {c : Config Op Out ε α Shared Sess} {i : ℕ},
    S.Launched prog ok s origin c → I origin c.toWorld → I origin (S.afterStop c.toWorld i)
  /-- The surroundings keep it. -/
  env : ∀ {origin : ℕ → Option ι} {c : Config Op Out ε α Shared Sess} {s' : Shared},
    S.Launched prog ok s origin c → I origin c.toWorld → S.env c.shared s' →
    I origin { c.toWorld with shared := s' }

/-- Induction over the runs that are told with their requests. -/
theorem Launched.invariant
    (hpossible : ∀ {c : Config Op Out ε α Shared Sess} {request i o r},
      S.Run ok (S.initial s) c → ok c.toWorld (.call i o r) → S.enabled i o r c.toWorld →
      (C request).possible o r (c.sess i))
    (hprog : ∀ request, (C request).Safe S.after (prog request) S.idle)
    {I : (ℕ → Option ι) → World Shared Sess → Prop} (hI : Launched.Preserves S prog C ok s I)
    (h : S.Launched prog ok s origin c) : I origin c.toWorld := by
  induction h with
  | start => exact hI.init
  | spawn hrun _ _ ih => exact hI.spawn hrun ih
  | @step origin c c' l hrun hl hs hne ih =>
      cases hs with
      | spawn _ => exact absurd rfl hne
      | @call i o next r hp hr =>
          obtain ⟨request, horigin, hwp⟩ := hrun.wp hpossible hprog hp
          -- the contract of the request guards the call
          have hguard := (((C request).wp_call S.after).mp hwp).1
          exact hI.call ⟨hrun, hl, horigin, hguard, hr, next, hp⟩ ih
      | stop hp => exact hI.stop hrun ih
      | env he => exact hI.env hrun ih he

end Contracts

end System

end Process

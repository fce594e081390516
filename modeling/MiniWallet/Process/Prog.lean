import Mathlib.Tactic.Common

/-!
# Programs over awaited operations

A coroutine, seen from outside, is a tree: it awaits an operation, receives the value or the
exception that the operation ends with, and goes on from there. `Prog` is that tree for an
arbitrary type of operations. It is a monad with exceptions, so a coroutine is written in `do`
notation and read back as its tree.

`Contract` lists what a program promises before it calls an operation (`guard`) and what it may
rely on about the result (`possible`). Both speak only of the program's own session, a value
that every operation of the program updates. `wp` is the weakest precondition for a contract:
it holds of a session when every execution from that session meets the guards and ends in one
of two postconditions, the first for a returned value and the second for an exception.
-/

namespace Process

/-- A program that awaits operations `o : Op`, each ending with a value in `Out o` or with an
exception, and that itself returns a value or raises an exception. -/
inductive Prog (Op : Type) (Out : Op → Type) (ε α : Type) : Type where
  /-- The program has returned `a`. -/
  | pure (a : α) : Prog Op Out ε α
  /-- The program has raised `e`. -/
  | raise (e : ε) : Prog Op Out ε α
  /-- The program awaits `o` and continues with its result. -/
  | call (o : Op) (next : Except ε (Out o) → Prog Op Out ε α) : Prog Op Out ε α

namespace Prog

variable {Op : Type} {Out : Op → Type} {ε α β : Type}

/-- Run `p`, then `f` on the value it returns. An exception of `p` ends the whole program. -/
def bind : Prog Op Out ε α → (α → Prog Op Out ε β) → Prog Op Out ε β
  | pure a, f => f a
  | raise e, _ => raise e
  | call o next, f => call o fun r => (next r).bind f

/-- Run `p`; an exception of `p` is handed to `h`. -/
def tryCatch : Prog Op Out ε α → (ε → Prog Op Out ε α) → Prog Op Out ε α
  | pure a, _ => pure a
  | raise e, h => h e
  | call o next, h => call o fun r => (next r).tryCatch h

/-- Programs are sequenced by `bind`. -/
instance : Monad (Prog Op Out ε) where
  pure := pure
  bind := bind

/-- Exceptions are raised by `raise` and handled by `tryCatch`. -/
instance : MonadExceptOf ε (Prog Op Out ε) where
  throw := raise
  tryCatch := tryCatch

/-- Await one operation, returning its value or raising its exception. -/
def perform (o : Op) : Prog Op Out ε (Out o) :=
  call o fun r =>
    match r with
    | .ok a => pure a
    | .error e => raise e

/-- How the program has ended, if it has. -/
def outcome? : Prog Op Out ε α → Option (Except ε α)
  | pure a => some (.ok a)
  | raise e => some (.error e)
  | call _ _ => none

/-- `p.Executes log p'`: the program `p` awaits the operations of `log` in order, they end as the
log says, and `p'` is what is left to do. -/
inductive Executes : Prog Op Out ε α → List ((o : Op) × Except ε (Out o)) → Prog Op Out ε α → Prop
  | refl {p : Prog Op Out ε α} : Executes p [] p
  | call {o : Op} {next : Except ε (Out o) → Prog Op Out ε α} {r : Except ε (Out o)}
      {log : List ((o : Op) × Except ε (Out o))} {p : Prog Op Out ε α} :
      Executes (next r) log p → Executes (call o next) (⟨o, r⟩ :: log) p

/-- Every operation that the program can await satisfies `P`. -/
def Awaits (P : Op → Prop) : Prog Op Out ε α → Prop
  | pure _ => True
  | raise _ => True
  | call o next => P o ∧ ∀ r, (next r).Awaits P

/-- A sequence awaits what its two parts await. -/
theorem Awaits.bind {P : Op → Prop} {p : Prog Op Out ε α} {f : α → Prog Op Out ε β}
    (hp : p.Awaits P) (hf : ∀ a, (f a).Awaits P) : (p >>= f).Awaits P := by
  change (p.bind f).Awaits P
  induction p with
  | pure a => exact hf a
  | raise e => exact trivial
  | call o next ih => exact ⟨hp.1, fun r => ih r (hp.2 r)⟩

/-- Awaiting one operation. -/
theorem awaits_perform {P : Op → Prop} {o : Op} (h : P o) :
    (perform o : Prog Op Out ε (Out o)).Awaits P := by
  refine ⟨h, fun r => ?_⟩
  cases r <;> exact trivial

section Executes

variable {p p' : Prog Op Out ε α} {log : List ((o : Op) × Except ε (Out o))}

/-- The operations of an execution are operations that the program can await. -/
theorem Executes.awaits {P : Op → Prop} (h : p.Executes log p') (hp : p.Awaits P) :
    ∀ entry ∈ log, P entry.1 := by
  induction h with
  | refl => exact fun entry hmem => (List.not_mem_nil hmem).elim
  | call _ ih =>
      intro entry hmem
      rcases List.mem_cons.mp hmem with rfl | hmem
      · exact hp.1
      · exact ih (hp.2 _) entry hmem

/-- A program that has ended awaits nothing more. -/
theorem Executes.eq_nil {out : Except ε α} (h : p.Executes log p') (hp : p.outcome? = some out) :
    log = [] := by
  cases h with
  | refl => rfl
  | call _ => cases hp

/-- An execution that comes to its end goes through the operation that is awaited first. -/
theorem Executes.exists_result {o : Op} {next : Except ε (Out o) → Prog Op Out ε α}
    {out : Except ε α} (h : (Prog.call o next).Executes log p') (hend : p'.outcome? = some out) :
    ∃ r log', log = ⟨o, r⟩ :: log' ∧ (next r).Executes log' p' := by
  cases h with
  | refl => cases hend
  | call h => exact ⟨_, _, rfl, h⟩

/-- An execution goes on with the operation that the program awaits next. -/
theorem Executes.snoc {o : Op} {next : Except ε (Out o) → Prog Op Out ε α}
    (h : p.Executes log (.call o next)) (r : Except ε (Out o)) :
    p.Executes (log ++ [⟨o, r⟩]) (next r) := by
  generalize hrest : Prog.call o next = rest at h
  induction h with
  | refl =>
      subst hrest
      exact .call .refl
  | call _ ih => exact .call (ih hrest)

/-- An operation that has returned is all of its execution. -/
theorem Executes.of_perform {o : Op} {a : Out o} (h : (Prog.perform o).Executes log (.pure a)) :
    log = [⟨o, .ok a⟩] := by
  obtain ⟨r, rest, rfl, hrest⟩ := h.exists_result rfl
  cases r with
  | ok value =>
      cases hrest with
      | refl => rfl
  | error e => cases hrest

/-- When a sequence has returned, its first part has, and then the rest. -/
theorem Executes.of_bind {p : Prog Op Out ε α} {f : α → Prog Op Out ε β} {b : β}
    (h : (p >>= f).Executes log (.pure b)) :
    ∃ a log₁ log₂, log = log₁ ++ log₂ ∧ p.Executes log₁ (.pure a) ∧
      (f a).Executes log₂ (.pure b) := by
  change (p.bind f).Executes log (.pure b) at h
  induction p generalizing log with
  | pure a => exact ⟨a, [], log, rfl, .refl, h⟩
  | raise e => cases h
  | call o next ih =>
      obtain ⟨r, rest, rfl, hrest⟩ := h.exists_result rfl
      obtain ⟨a, log₁, log₂, rfl, hfirst, hsecond⟩ := ih r hrest
      exact ⟨a, _ :: log₁, log₂, rfl, .call hfirst, hsecond⟩

end Executes

/-- Run the program to its end, with an answer for every operation: the operations it awaits, and
how it ends. -/
def runWith (answer : (o : Op) → Except ε (Out o)) : Prog Op Out ε α → List Op × Except ε α
  | pure a => ([], .ok a)
  | raise e => ([], .error e)
  | call o next =>
      let (ops, out) := (next (answer o)).runWith answer
      (o :: ops, out)

section RunWith

variable (answer : (o : Op) → Except ε (Out o))

/-- A program that has returned awaits nothing. -/
@[simp]
theorem runWith_pure (a : α) : (pure a : Prog Op Out ε α).runWith answer = ([], .ok a) :=
  rfl

/-- The same for `pure` of the monad. -/
@[simp]
theorem runWith_pure' (a : α) : (Pure.pure a : Prog Op Out ε α).runWith answer = ([], .ok a) :=
  rfl

/-- A program that has raised awaits nothing. -/
@[simp]
theorem runWith_throw (e : ε) : (throw e : Prog Op Out ε α).runWith answer = ([], .error e) :=
  rfl

/-- One operation is awaited, and its answer is the result. -/
@[simp]
theorem runWith_perform (o : Op) : (perform o : Prog Op Out ε (Out o)).runWith answer =
    ([o], answer o) := by
  simp only [perform, runWith]
  cases answer o <;> rfl

/-- Run the first part, and then the second part if the first one returned. -/
theorem runWith_bind (p : Prog Op Out ε α) (f : α → Prog Op Out ε β) :
    (p >>= f).runWith answer =
      match p.runWith answer with
      | (ops, .ok a) => (ops ++ ((f a).runWith answer).1, ((f a).runWith answer).2)
      | (ops, .error e) => (ops, .error e) := by
  change (p.bind f).runWith answer = _
  induction p with
  | pure a => rfl
  | raise e => rfl
  | call o next ih =>
      simp only [bind, runWith, ih]
      cases (next (answer o)).runWith answer with
      | mk ops out => cases out <;> rfl

/-- Run the body, and then the handler if the body raised. -/
theorem runWith_tryCatch (p : Prog Op Out ε α) (h : ε → Prog Op Out ε α) :
    (MonadExcept.tryCatch p h).runWith answer =
      match p.runWith answer with
      | (ops, .ok a) => (ops, .ok a)
      | (ops, .error e) => (ops ++ ((h e).runWith answer).1, ((h e).runWith answer).2) := by
  change (p.tryCatch h).runWith answer = _
  induction p with
  | pure a => rfl
  | raise e => rfl
  | call o next ih =>
      simp only [tryCatch, runWith, ih]
      cases (next (answer o)).runWith answer with
      | mk ops out => cases out <;> rfl

end RunWith

end Prog

/-- What a program owes before each operation and may expect of its result, in terms of its own
session. -/
structure Contract (Op : Type) (Out : Op → Type) (ε Sess : Type) where
  /-- What holds of the session whenever the program calls the operation. -/
  guard : Op → Sess → Prop
  /-- The results that the operation can end with when called in the session. -/
  possible : (o : Op) → Except ε (Out o) → Sess → Prop

namespace Contract

variable {Op : Type} {Out : Op → Type} {ε α β Sess : Type}
  (C : Contract Op Out ε Sess) (after : (o : Op) → Except ε (Out o) → Sess → Sess)

/-- Every execution of the program from session `σ` meets the guards of `C`; it ends in `Q` if it
returns and in `R` if it raises. -/
def wp : Prog Op Out ε α → (α → Sess → Prop) → (ε → Sess → Prop) → Sess → Prop
  | .pure a, Q, _, σ => Q a σ
  | .raise e, _, R, σ => R e σ
  | .call o next, Q, R, σ =>
      C.guard o σ ∧ ∀ r, C.possible o r σ → wp (next r) Q R (after o r σ)

variable {Q Q' : α → Sess → Prop} {R R' : ε → Sess → Prop} {σ : Sess}

/-- A program that has returned satisfies the first postcondition. -/
@[simp]
theorem wp_pure (a : α) : C.wp after (pure a : Prog Op Out ε α) Q R σ ↔ Q a σ :=
  Iff.rfl

/-- A program that raises satisfies the second one. -/
@[simp]
theorem wp_throw (e : ε) : C.wp after (throw e : Prog Op Out ε α) Q R σ ↔ R e σ :=
  Iff.rfl

/-- The same for `raise`. -/
@[simp]
theorem wp_raise (e : ε) : C.wp after (.raise e : Prog Op Out ε α) Q R σ ↔ R e σ :=
  Iff.rfl

/-- Awaiting: the guard holds, and every possible result leads to the postconditions. -/
theorem wp_call {o : Op} {next : Except ε (Out o) → Prog Op Out ε α} :
    C.wp after (.call o next) Q R σ ↔
      C.guard o σ ∧ ∀ r, C.possible o r σ → C.wp after (next r) Q R (after o r σ) :=
  Iff.rfl

/-- Awaiting an operation: its guard holds, and both ways in which it can end lead to the
postconditions. -/
theorem wp_perform (o : Op) {Q : Out o → Sess → Prop} :
    C.wp after (Prog.perform o) Q R σ ↔
      C.guard o σ ∧ (∀ a, C.possible o (.ok a) σ → Q a (after o (.ok a) σ)) ∧
        ∀ e, C.possible o (.error e) σ → R e (after o (.error e) σ) := by
  constructor
  · rintro ⟨hguard, h⟩
    exact ⟨hguard, fun a ha => h (.ok a) ha, fun e he => h (.error e) he⟩
  · rintro ⟨hguard, hok, herror⟩
    refine ⟨hguard, fun r hr => ?_⟩
    cases r with
    | ok a => exact hok a hr
    | error e => exact herror e hr

/-- Sequencing: the rest of the program is what the first part has to establish. -/
@[simp]
theorem wp_bind (p : Prog Op Out ε α) (f : α → Prog Op Out ε β)
    {Q : β → Sess → Prop} :
    C.wp after (p >>= f) Q R σ ↔ C.wp after p (fun a σ' => C.wp after (f a) Q R σ') R σ := by
  change C.wp after (p.bind f) Q R σ ↔ _
  induction p generalizing σ with
  | pure a => exact Iff.rfl
  | raise e => exact Iff.rfl
  | call o next ih =>
      simp only [Prog.bind, wp]
      exact and_congr_right fun _ => forall_congr' fun r => imp_congr_right fun _ => ih r

/-- A handler takes over from the exceptional postcondition. -/
@[simp]
theorem wp_tryCatch (p : Prog Op Out ε α) (h : ε → Prog Op Out ε α) :
    C.wp after (tryCatch p h) Q R σ ↔
      C.wp after p Q (fun e σ' => C.wp after (h e) Q R σ') σ := by
  change C.wp after (p.tryCatch h) Q R σ ↔ _
  induction p generalizing σ with
  | pure a => exact Iff.rfl
  | raise e => exact Iff.rfl
  | call o next ih =>
      simp only [Prog.tryCatch, wp]
      exact and_congr_right fun _ => forall_congr' fun r => imp_congr_right fun _ => ih r

/-- Weaker postconditions are easier to reach. -/
theorem wp_mono {p : Prog Op Out ε α} (hQ : ∀ a σ, Q a σ → Q' a σ)
    (hR : ∀ e σ, R e σ → R' e σ) (h : C.wp after p Q R σ) : C.wp after p Q' R' σ := by
  induction p generalizing σ with
  | pure a => exact hQ a σ h
  | raise e => exact hR e σ h
  | call o next ih => exact ⟨h.1, fun r hr => ih r (h.2 r hr)⟩

/-- A contract that asks for less and promises more proves at least as much. -/
theorem wp_of_stronger {C' : Contract Op Out ε Sess} {p : Prog Op Out ε α}
    (hguard : ∀ o σ, C.guard o σ → C'.guard o σ)
    (hpossible : ∀ o r σ, C.guard o σ → C'.possible o r σ → C.possible o r σ)
    (h : C.wp after p Q R σ) : C'.wp after p Q R σ := by
  induction p generalizing σ with
  | pure a => exact h
  | raise e => exact h
  | call o next ih =>
      exact ⟨hguard o σ h.1, fun r hr => ih r (h.2 r (hpossible o r σ h.1 hr))⟩

/-- What every operation keeps holds of the session in which the program ends. -/
theorem wp_with {I : Sess → Prop}
    (hI : ∀ o r σ, C.possible o r σ → I σ → I (after o r σ)) {p : Prog Op Out ε α}
    (h : C.wp after p Q R σ) (hσ : I σ) :
    C.wp after p (fun a σ => Q a σ ∧ I σ) (fun e σ => R e σ ∧ I σ) σ := by
  induction p generalizing σ with
  | pure a => exact ⟨h, hσ⟩
  | raise e => exact ⟨h, hσ⟩
  | call o next ih => exact ⟨h.1, fun r hr => ih r (h.2 r hr) (hI o r σ hr hσ)⟩

/-- A contract about sessions is one about anything that a session can be read off from. -/
theorem wp_lift {Abs : Type} {D : Contract Op Out ε Abs} {f : Abs → Sess}
    {step : (o : Op) → Except ε (Out o) → Abs → Abs}
    (hguard : ∀ o a, C.guard o (f a) → D.guard o a)
    (hpossible : ∀ o r a, D.possible o r a → C.possible o r (f a))
    (hstep : ∀ o r a, f (step o r a) = after o r (f a)) {p : Prog Op Out ε α} {a : Abs}
    (h : C.wp after p Q R (f a)) :
    D.wp step p (fun x a => Q x (f a)) (fun e a => R e (f a)) a := by
  induction p generalizing a with
  | pure x => exact h
  | raise e => exact h
  | call o next ih =>
      refine ⟨hguard o a h.1, fun r hr => ih r ?_⟩
      rw [hstep]
      exact h.2 r (hpossible o r a hr)

/-- A program that has ended satisfies its postcondition. -/
theorem wp_outcome {Post : Except ε α → Sess → Prop} {p : Prog Op Out ε α} {out : Except ε α}
    (h : C.wp after p (fun a => Post (.ok a)) (fun e => Post (.error e)) σ)
    (hout : p.outcome? = some out) : Post out σ := by
  cases p with
  | pure a =>
      cases hout
      exact h
  | raise e =>
      cases hout
      exact h
  | call o next => cases hout

-- from here on `wp` is used through its rules only
attribute [irreducible] wp

/-- `C.Safe after p σ`: every execution of `p` from `σ` meets the guards of `C`. -/
def Safe (p : Prog Op Out ε α) (σ : Sess) : Prop :=
  C.wp after p (fun _ _ => True) (fun _ _ => True) σ

/-- A program that reaches some postconditions meets the guards on the way. -/
theorem Safe.of_wp {p : Prog Op Out ε α} (h : C.wp after p Q R σ) : C.Safe after p σ :=
  C.wp_mono after (fun _ _ _ => trivial) (fun _ _ _ => trivial) h

/-- An operation of an execution is called under its guard, if the results on the way are possible
in every session. -/
theorem Safe.guard {p p' : Prog Op Out ε α} {log : List ((o : Op) × Except ε (Out o))} {o : Op}
    {r : Except ε (Out o)} (h : C.Safe after p σ) (hpossible : ∀ o r σ, C.possible o r σ)
    (hexec : p.Executes (log ++ [⟨o, r⟩]) p') :
    C.guard o (log.foldl (fun σ e => after e.1 e.2 σ) σ) := by
  induction log generalizing p σ with
  | nil =>
      cases hexec with
      | call _ => exact ((C.wp_call after).mp h).1
  | cons e log ih =>
      cases hexec with
      | call hexec => exact ih (((C.wp_call after).mp h).2 _ (hpossible _ _ _)) hexec

/-- The contract that asks for nothing and promises nothing. -/
def any (Op : Type) (Out : Op → Type) (ε Sess : Type) : Contract Op Out ε Sess where
  guard := fun _ _ => True
  possible := fun _ _ _ => True

/-- Every program is safe for the contract that asks for nothing. -/
theorem safe_any (p : Prog Op Out ε α) (σ : Sess) : (any Op Out ε Sess).Safe after p σ := by
  unfold Safe
  induction p generalizing σ with
  | pure a => exact ((any Op Out ε Sess).wp_pure after a).mpr trivial
  | raise e => exact ((any Op Out ε Sess).wp_raise after e).mpr trivial
  | call o next ih =>
      exact ((any Op Out ε Sess).wp_call after).mpr ⟨trivial, fun r _ => ih r (after o r σ)⟩

/-- A program that awaits only operations with a trivial guard is safe. -/
theorem safe_of_awaits {P : Op → Prop} {p : Prog Op Out ε α} (hP : ∀ o σ, P o → C.guard o σ)
    (h : p.Awaits P) (σ : Sess) : C.Safe after p σ := by
  unfold Safe
  induction p generalizing σ with
  | pure a => exact (C.wp_pure after a).mpr trivial
  | raise e => exact (C.wp_raise after e).mpr trivial
  | call o next ih =>
      exact (C.wp_call after).mpr ⟨hP o σ h.1, fun r _ => ih r (h.2 r) (after o r σ)⟩

/-- A handler that copes with every exception in every session completes a body that is safe up to
its exceptions. -/
theorem wp_tryCatch_of_forall {p : Prog Op Out ε α} {h : ε → Prog Op Out ε α}
    (hp : C.wp after p Q (fun _ _ => True) σ) (hh : ∀ e σ', C.wp after (h e) Q R σ') :
    C.wp after (tryCatch p h) Q R σ := by
  rw [wp_tryCatch]
  exact C.wp_mono after (fun _ _ hq => hq) (fun e σ' _ => hh e σ') hp

end Contract

end Process

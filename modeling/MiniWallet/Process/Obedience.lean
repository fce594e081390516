import MiniWallet.Process.Prog

/-!
# What a program can await

A rule says of each operation whether a program may await it. Whether a program obeys a rule does
not depend on sessions or on how operations end, so it is shown along the program.

* `Prog.Obeys`: every operation of a program satisfies the rule, and what it returns a
  postcondition.
* `Prog.Obeys.bind`, `Prog.Obeys.tryCatch`: sequences and handlers.
* `Prog.Obeys.wp`: a program that obeys a rule keeps the contracts whose guards follow from it.
-/

namespace Process

namespace Prog

variable {Op : Type} {Out : Op → Type} {ε α β : Type}

/-- Every operation that the program can await satisfies `P`, and every value that it can return
satisfies `Q`. -/
def Obeys (P : Op → Prop) : Prog Op Out ε α → (α → Prop) → Prop
  | .pure a, Q => Q a
  | .raise _, _ => True
  | .call o next, Q => P o ∧ ∀ r, (next r).Obeys P Q

variable {P : Op → Prop} {p : Prog Op Out ε α} {Q : α → Prop}

/-- A program that has returned awaits nothing. -/
theorem obeys_pure {a : α} (h : Q a) : (Pure.pure a : Prog Op Out ε α).Obeys P Q := h

/-- A program that has raised awaits nothing. -/
theorem obeys_throw (e : ε) : (throw e : Prog Op Out ε α).Obeys P Q := trivial

/-- Awaiting one operation. -/
theorem obeys_perform {o : Op} (h : P o) :
    (perform o : Prog Op Out ε (Out o)).Obeys P fun _ => True := by
  refine ⟨h, fun r => ?_⟩
  cases r with
  | ok a => trivial
  | error e => trivial

/-- A weaker postcondition is easier to reach. -/
theorem Obeys.mono (h : p.Obeys P Q) {Q' : α → Prop} (hQ : ∀ a, Q a → Q' a) : p.Obeys P Q' := by
  induction p with
  | pure a => exact hQ a h
  | raise e => trivial
  | call o next ih => exact ⟨h.1, fun r => ih r (h.2 r)⟩

/-- Sequencing: the second part may use the postcondition of the first. -/
theorem Obeys.bind {f : α → Prog Op Out ε β} {R : β → Prop} (hp : p.Obeys P Q)
    (hf : ∀ a, Q a → (f a).Obeys P R) : (p >>= f).Obeys P R := by
  change (p.bind f).Obeys P R
  induction p with
  | pure a => exact hf a hp
  | raise e => trivial
  | call o next ih => exact ⟨hp.1, fun r => ih r (hp.2 r)⟩

/-- A handler that obeys the rule whatever the exception is. -/
theorem Obeys.tryCatch {h : ε → Prog Op Out ε α} (hp : p.Obeys P Q)
    (hh : ∀ e, (h e).Obeys P Q) : (MonadExcept.tryCatch p h).Obeys P Q := by
  change (p.tryCatch h).Obeys P Q
  induction p with
  | pure a => exact hp
  | raise e => exact hh e
  | call o next ih => exact ⟨hp.1, fun r => ih r (hp.2 r)⟩

/-- A program that obeys a rule keeps every contract whose guards follow from the rule. -/
theorem Obeys.wp {Sess : Type} {C : Contract Op Out ε Sess}
    {after : (o : Op) → Except ε (Out o) → Sess → Sess} (h : p.Obeys P Q)
    (hC : ∀ o σ, P o → C.guard o σ) (σ : Sess) :
    C.wp after p (fun a _ => Q a) (fun _ _ => True) σ := by
  induction p generalizing σ with
  | pure a => exact (C.wp_pure after a).mpr h
  | raise e => exact (C.wp_raise after e).mpr trivial
  | call o next ih =>
      exact (C.wp_call after).mpr ⟨hC o σ h.1, fun r _ => ih r (h.2 r) (after o r σ)⟩

-- from here on `Obeys` is used through its rules only
attribute [irreducible] Obeys

end Prog

end Process

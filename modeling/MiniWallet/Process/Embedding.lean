import MiniWallet.Process.Prog

/-!
# Programs in programs

A program can be run as part of a program over other operations: each of its operations is carried
out by a program of the outer kind, which returns how the operation has ended.

* `Prog.via`: the inner program, carried out in the outer one.
* `Prog.via_bind`: a sequence is carried out as a sequence.
* `Contract.wp_via_perform`: an operation keeps the contracts that its outer program keeps.
-/

namespace Process

namespace Prog

variable {Op Op' : Type} {Out : Op → Type} {Out' : Op' → Type} {ε ε' α β γ : Type}

/-- Carry out the operations of a program by `run`; an exception that the program raises is
renamed. -/
def via (run : (o : Op) → Prog Op' Out' ε' (Except ε (Out o))) (rename : ε → ε') :
    Prog Op Out ε α → Prog Op' Out' ε' α
  | .pure a => .pure a
  | .raise e => .raise (rename e)
  | .call o next => (run o).bind fun r => (next r).via run rename

variable (run : (o : Op) → Prog Op' Out' ε' (Except ε (Out o))) (rename : ε → ε')

/-- Sequencing is associative. -/
theorem bind_assoc (p : Prog Op Out ε α) (f : α → Prog Op Out ε β) (g : β → Prog Op Out ε γ) :
    (p.bind f).bind g = p.bind fun a => (f a).bind g := by
  induction p with
  | pure a => rfl
  | raise e => rfl
  | call o next ih => simp only [bind, ih]

/-- A sequence is carried out as a sequence. -/
theorem via_bind (p : Prog Op Out ε α) (f : α → Prog Op Out ε β) :
    (p >>= f).via run rename = p.via run rename >>= fun a => (f a).via run rename := by
  change (p.bind f).via run rename = (p.via run rename).bind _
  induction p with
  | pure a => rfl
  | raise e => rfl
  | call o next ih =>
      simp only [bind, via, ih]
      exact (bind_assoc _ _ _).symm

end Prog

/-- An operation of the inner program is carried out by the outer one. -/
theorem Contract.wp_via_perform {Op Op' Sess : Type}
    {Out : Op → Type} {Out' : Op' → Type} {ε ε' : Type}
    {D : Contract Op' Out' ε' Sess} {step : (o : Op') → Except ε' (Out' o) → Sess → Sess}
    {run : (o : Op) → Prog Op' Out' ε' (Except ε (Out o))} {rename : ε → ε'} {o : Op}
    {Q : Out o → Sess → Prop} {σ : Sess}
    (h : D.wp step (run o) (fun r σ' => ∀ a, r = .ok a → Q a σ') (fun _ _ => True) σ) :
    D.wp step ((Prog.perform o).via run rename) Q (fun _ _ => True) σ := by
  refine (D.wp_bind step (run o) _).mpr (D.wp_mono step (fun r σ' hr => ?_) (fun _ _ h => h) h)
  cases r with
  | ok a => exact (D.wp_pure step a).mpr (hr a rfl)
  | error e => exact (D.wp_raise step (rename e)).mpr trivial

end Process

import Mathlib.Logic.Relation
import MiniWallet.Process.Interleaving

/-!
# One process alone

What a program does while no other process acts. Between two operations of the process only the
surroundings may change, any number of times.

* `Alone S ok i p P w`: total correctness. Every such execution of `p` by process `i` from `w`, by
  steps that satisfy `ok`, comes to its end, and ends in `P`.
* `AtOnce`: the same, from the first operation on.
* `Alone.exists_common`: an execution that ends as all executions do, and as those of some kind do.
* `Simulates`: a contract over abstract sessions describes a process that is alone.
* `Simulates.alone`: what the contract proves of a program holds of the process.
* `Alone.run`: the executions are runs of the system.
-/

namespace Process

open Relation

namespace System

variable {Op : Type} {Out : Op → Type} {ε α β Shared Sess : Type}

/-- What the program `p` does in process `i` from world `w`, if no other process acts. In every
world in which it awaits an operation the operation can end by a step that satisfies `ok`, and
however it ends the program comes to its end, with an outcome and in a world that satisfy `P`. -/
def Alone (S : System Op Out ε α Shared Sess) (ok : World Shared Sess → Label Op Out ε → Prop)
    (i : ℕ) : Prog Op Out ε β → (Except ε β → World Shared Sess → Prop) → World Shared Sess → Prop
  | .pure a, P, w => P (.ok a) w
  | .raise e, P, w => P (.error e) w
  | .call o next, P, w => ∀ s, ReflTransGen S.env w.shared s →
      (∃ r, S.enabled i o r { w with shared := s } ∧ ok { w with shared := s } (.call i o r)) ∧
        ∀ r, S.enabled i o r { w with shared := s } → ok { w with shared := s } (.call i o r) →
          Alone S ok i (next r) P (S.afterCall { w with shared := s } i o r)

variable {S : System Op Out ε α Shared Sess} {ok : World Shared Sess → Label Op Out ε → Prop}
  {i : ℕ} {p : Prog Op Out ε β} {P Q : Except ε β → World Shared Sess → Prop}
  {w : World Shared Sess}

namespace Alone

/-- A weaker postcondition is easier to reach. -/
theorem mono (h : S.Alone ok i p P w) (hPQ : ∀ out w', P out w' → Q out w') :
    S.Alone ok i p Q w := by
  induction p generalizing w with
  | pure a => exact hPQ _ _ h
  | raise e => exact hPQ _ _ h
  | call o next ih =>
      exact fun s hs => ⟨(h s hs).1, fun r hr hl => ih r ((h s hs).2 r hr hl)⟩

/-- Two postconditions hold together. -/
theorem and (h : S.Alone ok i p P w) (h' : S.Alone ok i p Q w) :
    S.Alone ok i p (fun out w' => P out w' ∧ Q out w') w := by
  induction p generalizing w with
  | pure a => exact ⟨h, h'⟩
  | raise e => exact ⟨h, h'⟩
  | call o next ih =>
      exact fun s hs => ⟨(h s hs).1,
        fun r hr hl => ih r ((h s hs).2 r hr hl) ((h' s hs).2 r hr hl)⟩

/-- There is an execution, so the postcondition can be satisfied. -/
theorem exists_outcome (h : S.Alone ok i p P w) : ∃ out w', P out w' := by
  induction p generalizing w with
  | pure a => exact ⟨_, _, h⟩
  | raise e => exact ⟨_, _, h⟩
  | call o next ih =>
      obtain ⟨⟨r, hr, hl⟩, hnext⟩ := h _ .refl
      exact ih r (hnext r hr hl)

end Alone

/-- An execution without changes of the surroundings, by steps that satisfy a stronger condition, is
an execution: if all executions end in `P`, and all of that kind in `Q`, then some execution ends in
both. -/
theorem Alone.exists_common {still : Shared → Shared → Prop}
    {ok' : World Shared Sess → Label Op Out ε → Prop} (hok : ∀ w l, ok' w l → ok w l)
    (h : S.Alone ok i p P w)
    (h' : ({ S with env := still } : System Op Out ε α Shared Sess).Alone ok' i p Q w) :
    ∃ out w', P out w' ∧ Q out w' := by
  induction p generalizing w with
  | pure a => exact ⟨_, _, h, h'⟩
  | raise e => exact ⟨_, _, h, h'⟩
  | call o next ih =>
      obtain ⟨⟨r, hr, hl⟩, hnext⟩ := h' _ .refl
      exact ih r ((h _ .refl).2 r hr (hok _ _ hl)) (hnext r hr hl)

/-- Like `Alone`, but the process makes its first operation at once, before anything changes. -/
def AtOnce (S : System Op Out ε α Shared Sess) (ok : World Shared Sess → Label Op Out ε → Prop)
    (i : ℕ) : Prog Op Out ε β → (Except ε β → World Shared Sess → Prop) → World Shared Sess → Prop
  | .pure a, P, w => P (.ok a) w
  | .raise e, P, w => P (.error e) w
  | .call o next, P, w =>
      (∃ r, S.enabled i o r w ∧ ok w (.call i o r)) ∧
        ∀ r, S.enabled i o r w → ok w (.call i o r) → S.Alone ok i (next r) P (S.afterCall w i o r)

/-- A step of process `i`, or of the surroundings. -/
def OnlyBy (i : ℕ) (_ : World Shared Sess) : Label Op Out ε → Prop
  | .call j _ _ => j = i
  | .env => True
  | _ => False

/-- Whether a step is one of the process or of the surroundings is decidable. -/
instance (i : ℕ) (w : World Shared Sess) (l : Label Op Out ε) : Decidable (OnlyBy i w l) :=
  match l with
  | .call j _ _ => inferInstanceAs (Decidable (j = i))
  | .env => inferInstanceAs (Decidable True)
  | .spawn => inferInstanceAs (Decidable False)
  | .stop _ => inferInstanceAs (Decidable False)

/-- In a run in which only process `i` acts, what is left of its program comes to the same end. The
surroundings may have changed since its last operation. -/
theorem Alone.run {p : Prog Op Out ε α} {P : Except ε α → World Shared Sess → Prop}
    {c c' : Config Op Out ε α Shared Sess} (h : S.Alone ok i p P c.toWorld)
    (hp : c.pool i = some p)
    (hrun : S.Run (fun w l => ok w l ∧ OnlyBy i w l) c c') :
    ∃ p' s, c'.pool i = some p' ∧ S.Alone ok i p' P { c'.toWorld with shared := s } ∧
      ReflTransGen S.env s c'.shared := by
  induction hrun with
  | refl => exact ⟨p, c.shared, hp, h, .refl⟩
  | @step c₁ c₂ l _ hl hs ih =>
      obtain ⟨p', s, hp', halone, henv⟩ := ih
      cases hs with
      -- the operation is the next one of the process, whatever the surroundings have done before
      | @call j o next r hj hr =>
          obtain rfl : j = i := hl.2
          rw [hp'] at hj
          cases hj
          exact ⟨next r, _, Function.update_self .., (halone c₁.shared henv).2 r hr hl.1, .refl⟩
      -- the surroundings go on: they are absorbed by the state that is left open
      | env he => exact ⟨p', s, hp', halone, henv.tail he⟩
      | spawn _ => exact hl.2.elim
      | stop _ => exact hl.2.elim

/-- The contract `C` over abstract sessions, which develop by `after`, describes what process `i`
does alone in the worlds that are related to its sessions by `At`. -/
structure Simulates {Abs : Type} (S : System Op Out ε α Shared Sess)
    (ok : World Shared Sess → Label Op Out ε → Prop) (i : ℕ) (C : Contract Op Out ε Abs)
    (after : (o : Op) → Except ε (Out o) → Abs → Abs) (At : Abs → World Shared Sess → Prop) :
    Prop where
  /-- Changes of the surroundings do not concern the abstract session. -/
  env : ∀ {a w s}, At a w → S.env w.shared s → At a { w with shared := s }
  /-- An operation that is called under its guard can end. -/
  ends : ∀ {a w o}, At a w → C.guard o a → ∃ r, S.enabled i o r w ∧ ok w (.call i o r)
  /-- It ends as the contract has it. -/
  possible : ∀ {a w o r}, At a w → C.guard o a → S.enabled i o r w → ok w (.call i o r) →
    C.possible o r a
  /-- The abstract session keeps up with the world. -/
  after : ∀ {a w o r}, At a w → C.guard o a → S.enabled i o r w → ok w (.call i o r) →
    At (after o r a) (S.afterCall w i o r)

namespace Simulates

variable {Abs : Type} {C : Contract Op Out ε Abs} {after : (o : Op) → Except ε (Out o) → Abs → Abs}
  {At : Abs → World Shared Sess → Prop}

/-- Changes of the surroundings, one after the other, keep the relation. -/
theorem envs (hS : S.Simulates ok i C after At) {a : Abs} {s : Shared} (ha : At a w)
    (hs : ReflTransGen S.env w.shared s) : At a { w with shared := s } := by
  induction hs with
  | refl => exact ha
  | @tail s' _ _ he ih => exact hS.env (w := { w with shared := s' }) ih he

/-- A program that keeps the contract from an abstract session does so alone in every world that is
related to the session. -/
theorem alone (hS : S.Simulates ok i C after At) (Post : Except ε β → Abs → Prop) {a : Abs}
    (h : C.wp after p (fun x => Post (.ok x)) (fun e => Post (.error e)) a) (ha : At a w) :
    S.Alone ok i p (fun out w' => ∃ a', At a' w' ∧ Post out a') w := by
  induction p generalizing a w with
  | pure x => exact ⟨a, ha, (C.wp_pure after x).mp h⟩
  | raise e => exact ⟨a, ha, (C.wp_raise after e).mp h⟩
  | call o next ih =>
      obtain ⟨hguard, hnext⟩ := (C.wp_call after).mp h
      intro s hs
      have ha' := hS.envs ha hs
      exact ⟨hS.ends ha' hguard, fun r hr hl =>
        ih r (hnext r (hS.possible ha' hguard hr hl)) (hS.after ha' hguard hr hl)⟩

end Simulates

end System

end Process

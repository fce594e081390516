import Mathlib.Algebra.BigOperators.Group.List.Basic
import Mathlib.Algebra.Order.Group.Defs
import Mathlib.Tactic.Abel

/-!
# Journals of postings

A posting moves an amount from a source account to a target account. The balance of an account is
the sum of the effects of all postings on it. This is the arithmetic of double entry, for accounts
of any type and amounts in any commutative group.

* `balance_perm`: the order of the postings does not matter.
* `balance_eq_sub`: a balance is what came in minus what went out.
* `balance_nonneg_cons`: a posting that its source can afford takes no account below zero, accounts
  that are exempt apart.
-/

namespace Bookkeeping

/-- An amount moved from a source account to a target account. -/
structure Posting (Account Amount : Type) where
  /-- The account that is debited. -/
  source : Account
  /-- The account that is credited. -/
  target : Account
  /-- What is moved. -/
  amount : Amount
deriving DecidableEq, Repr

section Group

variable {Account Amount : Type} [DecidableEq Account] [AddCommGroup Amount]

/-- What a posting does to the balance of account `a`. -/
def Posting.effect (p : Posting Account Amount) (a : Account) : Amount :=
  (if p.target = a then p.amount else 0) - (if p.source = a then p.amount else 0)

/-- The balance of account `a` after the postings of a journal. -/
def balance (j : List (Posting Account Amount)) (a : Account) : Amount :=
  (j.map (·.effect a)).sum

variable (j j' : List (Posting Account Amount)) (a : Account)

/-- The balance of no postings. -/
@[simp]
theorem balance_nil : balance ([] : List (Posting Account Amount)) a = 0 := rfl

/-- One more posting. -/
@[simp]
theorem balance_cons (p : Posting Account Amount) :
    balance (p :: j) a = p.effect a + balance j a := by
  simp [balance]

/-- Postings in two parts. -/
@[simp]
theorem balance_append : balance (j ++ j') a = balance j a + balance j' a := by
  simp [balance]

variable {j j'} in
/-- The order of the postings does not matter. -/
theorem balance_perm (h : j.Perm j') : balance j a = balance j' a :=
  (h.map _).sum_eq

/-- The balance of an account is the sum of what it was credited with minus the sum of what it was
debited with. -/
theorem balance_eq_sub :
    balance j a = ((j.filter (·.target = a)).map (·.amount)).sum -
      ((j.filter (·.source = a)).map (·.amount)).sum := by
  induction j with
  | nil => simp
  | cons p j ih =>
      rw [balance_cons, ih]
      by_cases ht : p.target = a <;> by_cases hs : p.source = a <;>
        simp [Posting.effect, ht, hs] <;> abel

end Group

section Order

variable {Account Amount : Type} [DecidableEq Account] [AddCommGroup Amount] [LinearOrder Amount]
  [IsOrderedAddMonoid Amount]

omit [IsOrderedAddMonoid Amount] in
/-- A posting of a nonnegative amount takes nothing from an account that is not its source. -/
theorem Posting.effect_nonneg {p : Posting Account Amount} {a : Account} (hp : 0 ≤ p.amount)
    (ha : p.source ≠ a) : 0 ≤ p.effect a := by
  rw [effect, if_neg ha, sub_zero]
  split
  · exact hp
  · exact le_rfl

/-- A posting takes at most its amount from its source. -/
theorem Posting.neg_le_effect {p : Posting Account Amount} {a : Account} (hp : 0 ≤ p.amount) :
    -p.amount ≤ p.effect a := by
  rw [effect]
  split <;> split <;> simp [hp]

/-- If no account is below zero, apart from exempt ones, then none is after a posting whose source
is exempt or can afford it. -/
theorem balance_nonneg_cons {exempt : Account → Prop} {j : List (Posting Account Amount)}
    {p : Posting Account Amount} (hj : ∀ a, ¬ exempt a → 0 ≤ balance j a) (hp : 0 ≤ p.amount)
    (hsource : exempt p.source ∨ p.amount ≤ balance j p.source) :
    ∀ a, ¬ exempt a → 0 ≤ balance (p :: j) a := by
  intro a ha
  rw [balance_cons]
  by_cases hs : p.source = a
  · subst hs
    have hafford := hsource.resolve_left ha
    calc (0 : Amount) ≤ -p.amount + balance j p.source := by
          rwa [neg_add_eq_sub, sub_nonneg]
      _ ≤ p.effect p.source + balance j p.source := by
          gcongr
          exact Posting.neg_le_effect hp
  · exact add_nonneg (Posting.effect_nonneg hp hs) (hj a ha)

end Order

end Bookkeeping

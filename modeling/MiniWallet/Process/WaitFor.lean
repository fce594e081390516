import Mathlib.Logic.Relation
import Mathlib.Order.Defs.Unbundled

/-!
# Wait-for graphs

Parties hold resources and wait for resources that other parties hold. If everybody who waits for a
resource holds only resources that come before it in some strict order, then nobody waits for
himself through any chain of others.

* `WaitFor.Deadlocked`: a chain of parties that wait for each other is closed.
* `WaitFor.not_deadlocked`: ordered requests exclude it.
-/

namespace Process

/-- `G i x j`: party `i` waits for resource `x`, which party `j` holds. -/
abbrev WaitFor (Party Resource : Type) := Party → Resource → Party → Prop

namespace WaitFor

variable {Party Resource : Type} {G : WaitFor Party Resource} {i j : Party}

/-- One party waits for another one. -/
def Waits (G : WaitFor Party Resource) (i j : Party) : Prop := ∃ x, G i x j

/-- Some party waits for itself, through a chain of others. -/
def Deadlocked (G : WaitFor Party Resource) : Prop := ∃ i, Relation.TransGen G.Waits i i

/-- What a party waits for comes after what others wait for it to release. -/
def Ordered (G : WaitFor Party Resource) (r : Resource → Resource → Prop) : Prop :=
  ∀ {i x j y k}, G i x j → G j y k → r x y

variable {r : Resource → Resource → Prop} [IsStrictOrder Resource r]

/-- Along a chain, the resource that is waited for last is the first one or comes after it. -/
theorem Ordered.chain (h : G.Ordered r) (hchain : Relation.TransGen G.Waits i j) :
    ∃ x y, (∃ k, G i x k) ∧ (∃ k, G k y j) ∧ (x = y ∨ r x y) := by
  -- induction over the chain, at its end
  induction hchain with
  | single hstep =>
      obtain ⟨x, hx⟩ := hstep
      exact ⟨x, x, ⟨_, hx⟩, ⟨_, hx⟩, .inl rfl⟩
  | tail _ hstep ih =>
      obtain ⟨x, y, hfirst, ⟨k, hlast⟩, hxy⟩ := ih
      obtain ⟨z, hz⟩ := hstep
      have hyz := h hlast hz
      refine ⟨x, z, hfirst, ⟨_, hz⟩, .inr ?_⟩
      rcases hxy with rfl | hxy
      · exact hyz
      · exact IsTrans.trans _ _ _ hxy hyz

/-- Ordered requests do not deadlock. -/
theorem not_deadlocked (h : G.Ordered r) : ¬ G.Deadlocked := by
  rintro ⟨i, hcircle⟩
  obtain ⟨x, y, ⟨k, hfirst⟩, ⟨k', hlast⟩, hxy⟩ := h.chain hcircle
  -- the party that closes the circle is the one that began it
  have hyx := h hlast hfirst
  rcases hxy with rfl | hxy
  · exact irrefl x hyx
  · exact irrefl x (IsTrans.trans _ _ _ hxy hyx)

end WaitFor

end Process

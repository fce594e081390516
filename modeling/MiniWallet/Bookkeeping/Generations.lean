import Mathlib.Algebra.BigOperators.Group.Finset.Basic
import Mathlib.Algebra.Order.BigOperators.Group.Finset
import Mathlib.Data.Finset.Prod

/-!
# Generations

Individuals that descend from one ancestor. Each of the others has a parent of the generation before
and was made by one of a set of makers, and a maker makes at most one child of a given parent. The
generations then grow at most by the number of makers.
-/

namespace Bookkeeping

variable {ι κ : Type} {S : Finset ι} {generation : ι → ℕ} {origin : ι → κ × ι} {F : Finset κ}

/-- Every individual but the ancestor has a maker and a parent, and is determined by them. -/
structure Descends (S : Finset ι) (generation : ι → ℕ) (origin : ι → κ × ι) (F : Finset κ) :
    Prop where
  ancestor : (S.filter fun i => generation i = 0).card ≤ 1
  maker : ∀ i ∈ S, 0 < generation i → (origin i).1 ∈ F
  parent : ∀ i ∈ S, 0 < generation i →
    (origin i).2 ∈ S ∧ generation (origin i).2 + 1 = generation i
  distinct : ∀ i ∈ S, ∀ j ∈ S, 0 < generation i → 0 < generation j → origin i = origin j → i = j

/-- There are at most `F.card ^ r` individuals in generation `r`. -/
theorem Descends.card_generation_le (h : Descends S generation origin F) (r : ℕ) :
    (S.filter fun i => generation i = r).card ≤ F.card ^ r := by
  induction r with
  | zero => simpa using h.ancestor
  | succ r ih =>
      -- an individual is sent to its maker and its parent, who is one generation older
      have hmaps : Set.MapsTo origin (S.filter fun i => generation i = r + 1)
          (F ×ˢ S.filter fun i => generation i = r : Finset (κ × ι)) := by
        intro i hi
        obtain ⟨hS, hgeneration⟩ := Finset.mem_filter.mp hi
        have hpos : 0 < generation i := by omega
        obtain ⟨hparent, hsucc⟩ := h.parent i hS hpos
        refine Finset.mem_coe.mpr (Finset.mem_product.mpr ⟨h.maker i hS hpos, ?_⟩)
        exact Finset.mem_filter.mpr ⟨hparent, by omega⟩
      -- and a maker makes one individual from a parent, so that no two are sent to the same pair
      have hinj : Set.InjOn origin (S.filter fun i => generation i = r + 1) := by
        intro i hi j hj
        obtain ⟨hi, hgi⟩ := Finset.mem_filter.mp hi
        obtain ⟨hj, hgj⟩ := Finset.mem_filter.mp hj
        exact h.distinct i hi j hj (by omega) (by omega)
      calc (S.filter fun i => generation i = r + 1).card
          ≤ (F ×ˢ S.filter fun i => generation i = r).card :=
            Finset.card_le_card_of_injOn origin hmaps hinj
        _ = F.card * (S.filter fun i => generation i = r).card := Finset.card_product _ _
        _ ≤ F.card * F.card ^ r := Nat.mul_le_mul_left _ ih
        _ = F.card ^ (r + 1) := (pow_succ' _ _).symm

/-- The number of individuals in the generations up to `L`. -/
theorem Descends.card_le (h : Descends S generation origin F) {L : ℕ}
    (hL : ∀ i ∈ S, generation i ≤ L) : S.card ≤ ∑ r ∈ Finset.range (L + 1), F.card ^ r := by
  have hmaps : ∀ i ∈ S, generation i ∈ Finset.range (L + 1) := fun i hi =>
    Finset.mem_range.mpr (Nat.lt_succ_of_le (hL i hi))
  rw [Finset.card_eq_sum_card_fiberwise hmaps]
  exact Finset.sum_le_sum fun r _ => h.card_generation_le r

end Bookkeeping

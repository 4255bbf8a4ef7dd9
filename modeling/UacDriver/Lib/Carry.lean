import Mathlib.Algebra.BigOperators.Group.List.Basic
import Mathlib.Data.Nat.ModEq

/-!
# Division with a carried remainder

A stream of amounts is shared out in units of `period`: each turn hands out the whole units and carries the rest to
the next turn. However the amounts vary, the units handed out so far are the whole units of the amounts so far.
-/

namespace Carry

variable {period r : Nat}

/-- The units handed out in each turn, with `r` carried in. -/
def shares (period : Nat) : Nat → List Nat → List Nat
  | _, [] => []
  | r, x :: xs => (r + x) / period :: shares period ((r + x) % period) xs

/-- What is carried out after the last turn. -/
def rest (period : Nat) : Nat → List Nat → Nat
  | r, [] => r
  | r, x :: xs => rest period ((r + x) % period) xs

@[simp] theorem shares_length (r : Nat) (xs : List Nat) : (shares period r xs).length = xs.length := by
  induction xs generalizing r with
  | nil => rfl
  | cons x xs ih => simp [shares, ih]

theorem shares_append (r : Nat) (xs ys : List Nat) :
    shares period r (xs ++ ys) = shares period r xs ++ shares period (rest period r xs) ys := by
  induction xs generalizing r with
  | nil => rfl
  | cons x xs ih => simp [shares, rest, ih]

theorem rest_append (r : Nat) (xs ys : List Nat) : rest period r (xs ++ ys) = rest period (rest period r xs) ys := by
  induction xs generalizing r with
  | nil => rfl
  | cons x xs ih => simp [rest, ih]

theorem shares_take (r k : Nat) (xs : List Nat) : (shares period r xs).take k = shares period r (xs.take k) := by
  induction xs generalizing r k with
  | nil => simp [shares]
  | cons x xs ih =>
    cases k with
    | zero => rfl
    | succ k => simp [shares, ih]

theorem rest_lt (hr : r < period) (xs : List Nat) : rest period r xs < period := by
  induction xs generalizing r with
  | nil => exact hr
  | cons x xs ih => exact ih (Nat.mod_lt _ (by omega))

/-- Nothing is lost and nothing is made up: units handed out and rest make the amounts. -/
theorem sum_shares_mul (r : Nat) (xs : List Nat) :
    (shares period r xs).sum * period + rest period r xs = r + xs.sum := by
  induction xs generalizing r with
  | nil => simp [shares, rest]
  | cons x xs ih =>
    have hih := ih ((r + x) % period)
    have hdiv := Nat.div_add_mod (r + x) period
    rw [Nat.mul_comm] at hdiv
    simp only [shares, rest, List.sum_cons, Nat.add_mul]
    omega

theorem sum_shares (hr : r < period) (xs : List Nat) : (shares period r xs).sum = (r + xs.sum) / period := by
  have hlt := rest_lt hr xs
  have hmul : (shares period r xs).sum * period + rest period r xs = r + xs.sum := sum_shares_mul r xs
  rw [← hmul, Nat.add_comm, Nat.add_mul_div_right _ _ (by omega),
    Nat.div_eq_of_lt hlt, Nat.zero_add]

/-- With a constant amount a turn hands out the quotient, or one more if the division is inexact. -/
theorem mem_shares_replicate (hr : r < period) {x k n : Nat} (hn : n ∈ shares period r (List.replicate k x)) :
    n = x / period ∨ n = x / period + 1 ∧ x % period ≠ 0 := by
  induction k generalizing r with
  | zero => cases hn
  | succ k ih =>
    rw [List.replicate_succ, shares] at hn
    rcases List.mem_cons.1 hn with rfl | hn
    · have hpos : 0 < period := by omega
      have hdiv := Nat.div_add_mod x period
      have hmod := Nat.mod_lt x hpos
      rcases Nat.lt_or_ge (r + x % period) period with hlt | hge
      · left
        rw [← hdiv, ← Nat.add_assoc, Nat.add_comm r, Nat.add_assoc, Nat.mul_add_div hpos, Nat.div_eq_of_lt hlt,
          Nat.add_zero, Nat.mul_add_div hpos, Nat.div_eq_of_lt hmod, Nat.add_zero]
      · right
        refine ⟨?_, by omega⟩
        have hone : (r + x % period) / period = 1 := by
          refine Nat.div_eq_of_lt_le (by omega) (by omega)
        conv_lhs => rw [← hdiv, ← Nat.add_assoc, Nat.add_comm r, Nat.add_assoc, Nat.mul_add_div hpos, hone]
    · exact ih (Nat.mod_lt _ (by omega)) hn

end Carry

import Mathlib.Algebra.Order.Floor.Semifield
import Mathlib.Data.Rat.Floor

/-!
# Checked 64-bit arithmetic

The operations of `UInt64` that have a result only where they do not wrap, and the division facts that turn an
expression of them into exact arithmetic on the rationals.
-/

namespace Checked

def mul (a b : UInt64) : Option UInt64 := if a.toNat * b.toNat < 2 ^ 64 then some (a * b) else none

def add (a b : UInt64) : Option UInt64 := if a.toNat + b.toNat < 2 ^ 64 then some (a + b) else none

def sub (a b : UInt64) : Option UInt64 := if b ≤ a then some (a - b) else none

variable {a b : UInt64}

theorem mul_eq (h : a.toNat * b.toNat < 2 ^ 64) : mul a b = some (a * b) := if_pos h

theorem add_eq (h : a.toNat + b.toNat < 2 ^ 64) : add a b = some (a + b) := if_pos h

theorem sub_eq (h : b ≤ a) : sub a b = some (a - b) := if_pos h

theorem toNat_mul (h : a.toNat * b.toNat < 2 ^ 64) : (a * b).toNat = a.toNat * b.toNat := by
  rw [UInt64.toNat_mul, Nat.mod_eq_of_lt h]

theorem toNat_add (h : a.toNat + b.toNat < 2 ^ 64) : (a + b).toNat = a.toNat + b.toNat := by
  rw [UInt64.toNat_add, Nat.mod_eq_of_lt h]

/-! ### Quotients -/

/-- A product is divided without being formed: the quotient and the remainder are multiplied apart. -/
theorem mul_div_split (a b : Nat) {c : Nat} (hc : 0 < c) : a * b / c = a / c * b + a % c * b / c := by
  calc a * b / c = (c * (a / c) + a % c) * b / c := by rw [Nat.div_add_mod]
    _ = (a % c * b + c * (a / c * b)) / c := by
      congr 1
      ring
    _ = a / c * b + a % c * b / c := by rw [Nat.add_mul_div_left _ _ hc, Nat.add_comm]

/-- The quotient rounded up, as integer code computes it. -/
theorem ceil_div_eq (a : Nat) {c : Nat} (hc : 0 < c) : ⌈(a : ℚ) / c⌉₊ = (a + c - 1) / c := by
  have hpos : (0 : ℚ) < c := Nat.cast_pos.2 hc
  refine eq_of_forall_ge_iff fun k => ?_
  rw [Nat.ceil_le, div_le_iff₀ hpos, Nat.div_le_iff_le_mul_add_pred hc]
  norm_cast
  rw [Nat.mul_comm k c]
  omega

end Checked

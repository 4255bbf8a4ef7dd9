import Mathlib.Data.Nat.Basic
import Mathlib.Data.Nat.ModEq

/-!
# Free-running cursors

A cursor is a machine word that only ever advances and wraps with the word. `dist h t` is how far `h` has
run ahead of `t`; the lemmas say that the distance is the true one as long as it is below one word, and
that a ring size dividing the word makes the cell of a cursor independent of the wrap.
-/

namespace Cursor

variable {w : Nat}

/-- How far `h` is ahead of `t`, in the word's own subtraction. -/
def dist (h t : BitVec w) : Nat := (h - t).toNat

theorem dist_lt (h t : BitVec w) : dist h t < 2 ^ w := (h - t).isLt

@[simp] theorem dist_self (h : BitVec w) : dist h h = 0 := by simp [dist]

/-- The distance of two wrapped counters is the distance of the counters. -/
theorem dist_ofNat {H T : Nat} (hle : T ≤ H) (hlt : H - T < 2 ^ w) :
    dist (BitVec.ofNat w H) (BitVec.ofNat w T) = H - T := by
  obtain ⟨n, rfl⟩ := Nat.exists_eq_add_of_le hle
  have hn : n < 2 ^ w := by omega
  unfold dist
  rw [BitVec.ofNat_add, BitVec.add_comm, BitVec.add_sub_cancel, BitVec.toNat_ofNat, Nat.mod_eq_of_lt hn]
  omega

theorem eq_ofNat_add_dist (h t : BitVec w) : h = BitVec.ofNat w (t.toNat + dist h t) := by
  rw [BitVec.ofNat_add, dist, BitVec.ofNat_toNat, BitVec.ofNat_toNat, BitVec.setWidth_eq, BitVec.setWidth_eq,
    BitVec.add_comm, BitVec.sub_add_cancel]

theorem dist_add_left {h t : BitVec w} {n : Nat} (hn : dist h t + n < 2 ^ w) :
    dist (h + BitVec.ofNat w n) t = dist h t + n := by
  conv_lhs => rw [eq_ofNat_add_dist h t, ← BitVec.ofNat_add]
  have ht : t = BitVec.ofNat w t.toNat := by simp
  conv_lhs => arg 2; rw [ht]
  rw [dist_ofNat (by omega) (by omega)]
  omega

theorem dist_add_right {h t : BitVec w} {n : Nat} (hn : n ≤ dist h t) :
    dist h (t + BitVec.ofNat w n) = dist h t - n := by
  have hlt := dist_lt h t
  conv_lhs => rw [eq_ofNat_add_dist h t]
  have ht : t + BitVec.ofNat w n = BitVec.ofNat w (t.toNat + n) := by
    rw [BitVec.ofNat_add, BitVec.ofNat_toNat, BitVec.setWidth_eq]
  rw [ht, dist_ofNat (by omega) (by omega)]
  omega

theorem dist_sub_right (h : BitVec w) {n : Nat} (hn : n < 2 ^ w) : dist h (h - BitVec.ofNat w n) = n := by
  have hsub : h - (h - BitVec.ofNat w n) = BitVec.ofNat w n := by grind
  rw [dist, hsub, BitVec.toNat_ofNat, Nat.mod_eq_of_lt hn]

/-- The cell of a wrapped counter is the cell of the counter. -/
theorem toNat_ofNat_mod {cap : Nat} (hd : cap ∣ 2 ^ w) (n : Nat) : (BitVec.ofNat w n).toNat % cap = n % cap := by
  rw [BitVec.toNat_ofNat, Nat.mod_mod_of_dvd _ hd]

theorem toNat_add_mod {cap : Nat} (hd : cap ∣ 2 ^ w) (t : BitVec w) (n : Nat) :
    (t + BitVec.ofNat w n).toNat % cap = (t.toNat + n) % cap := by
  rw [BitVec.toNat_add, Nat.mod_mod_of_dvd _ hd, Nat.add_mod, toNat_ofNat_mod hd, ← Nat.add_mod]

theorem toNat_mod_eq_add_dist {cap : Nat} (hd : cap ∣ 2 ^ w) (h t : BitVec w) :
    h.toNat % cap = (t.toNat + dist h t) % cap := by
  conv_lhs => rw [eq_ofNat_add_dist h t, toNat_ofNat_mod hd]

end Cursor

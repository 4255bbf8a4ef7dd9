import UacDriver.Lib.Circular
import UacDriver.Lib.Cursor
import Mathlib.Data.Nat.Bitwise

/-!
# The byte rings

`ring_` and `captureRing_` of the driver are power-of-two byte vectors with a producer cursor `head` and a
consumer cursor `tail`, both `size_t` words of `w` bits that wrap and are masked at access. `RingSize`
carries what every size the driver installs satisfies: a power of two that a `size_t` can represent.
`contents` is the abstraction every result about a ring is stated over: the unread bytes, oldest first.
-/

namespace UacDriver

open Circular Cursor

/-- A ring size: a power of two, and itself a `size_t` value. -/
structure RingSize (w : Nat) where
  bytes : Nat
  pow2 : ∃ k, bytes = 2 ^ k
  lt : bytes < 2 ^ w

namespace RingSize

variable {w : Nat}

theorem pos (z : RingSize w) : 0 < z.bytes := by
  obtain ⟨k, hk⟩ := z.pow2
  rw [hk]; exact Nat.two_pow_pos k

theorem dvd_word (z : RingSize w) : z.bytes ∣ 2 ^ w := by
  obtain ⟨k, hk⟩ := z.pow2
  have hlt := z.lt
  rw [hk] at hlt ⊢
  exact Nat.pow_dvd_pow 2 (Nat.le_of_lt ((Nat.pow_lt_pow_iff_right (by omega)).1 hlt))

/-- Masking with `size - 1` is the remainder modulo the size. -/
theorem and_mask (z : RingSize w) (n : Nat) : n &&& (z.bytes - 1) = n % z.bytes := by
  obtain ⟨k, hk⟩ := z.pow2
  rw [hk, Nat.and_two_pow_sub_one_eq_mod]

/-- The power-of-two test of `configureUserspaceBuffers`, `n & (n - 1)`. -/
theorem pow2_of_and_pred {n : Nat} (hn : 0 < n) (h : n &&& (n - 1) = 0) : ∃ k, n = 2 ^ k := by
  refine ⟨n.log2, ?_⟩
  by_contra hne
  have hle : 2 ^ n.log2 ≤ n := Nat.log2_self_le (by omega)
  have hlt : n < 2 ^ (n.log2 + 1) := Nat.lt_log2_self
  -- both `n` and `n - 1` keep the top bit of `n`
  have top : ∀ m, 2 ^ n.log2 ≤ m → m < 2 ^ (n.log2 + 1) → m.testBit n.log2 = true := by
    intro m h₁ h₂
    rw [Nat.testBit_eq_decide_div_mod_eq]
    have : m / 2 ^ n.log2 = 1 := by
      refine Nat.div_eq_of_lt_le (by omega) ?_
      rw [Nat.pow_succ] at h₂; omega
    simp [this]
  have hb := congrArg (Nat.testBit · n.log2) h
  simp only [Nat.testBit_and, top n hle hlt, top (n - 1) (by omega) (by omega), Nat.zero_testBit] at hb
  exact absurd hb (by decide)

/-- The smallest size `configureUserspaceBuffers` accepts, for a 64-bit `size_t`. -/
def smallest : RingSize 64 := ⟨4096, ⟨12, rfl⟩, by decide⟩

/-- The size a vector of `n` bytes has, if the masked cursors can address it. -/
def ofBytes? (w n : Nat) : Option (RingSize w) :=
  if h : 0 < n ∧ n &&& (n - 1) = 0 ∧ n < 2 ^ w then some ⟨n, pow2_of_and_pred h.1 h.2.1, h.2.2⟩ else none

theorem bytes_of_ofBytes? {n : Nat} {z : RingSize w} (h : ofBytes? w n = some z) : z.bytes = n := by
  unfold ofBytes? at h
  split at h
  · cases h; rfl
  · cases h

end RingSize

structure Ring (w : Nat) where
  size : RingSize w
  data : Nat → UInt8
  head : BitVec w
  tail : BitVec w

namespace Ring

variable {w : Nat} (r : Ring w)

/-- `ring_.assign(capacity, 0)` with both cursors at zero. -/
def assign (z : RingSize w) : Ring w := ⟨z, fun _ => 0, 0, 0⟩

/-- `ringSize(head, tail)`: the bytes committed and not yet consumed. -/
def used : Nat := dist r.head r.tail

/-- `cursor & mask`, the physical offset of a cursor. -/
def offset (c : BitVec w) : Nat := c.toNat &&& (r.size.bytes - 1)

/-- The unread bytes, oldest first. -/
def contents : List UInt8 := window r.data r.size.bytes r.tail.toNat r.used

/-- The two `memcpy` calls that read `n` bytes from cursor `c` on. -/
def readAt (c : BitVec w) (n : Nat) : List UInt8 :=
  let first := min n (r.size.bytes - r.offset c)
  copyOut r.data (r.offset c) first ++ copyOut r.data 0 (n - first)

/-- The two `memcpy` calls that write `xs` from cursor `c` on. -/
def writeAt (c : BitVec w) (xs : List UInt8) : Ring w :=
  let first := min xs.length (r.size.bytes - r.offset c)
  { r with data := blit (blit r.data (r.offset c) (xs.take first)) 0 (xs.drop first) }

@[simp] theorem offset_eq (c : BitVec w) : r.offset c = c.toNat % r.size.bytes := r.size.and_mask _

@[simp] theorem contents_length : r.contents.length = r.used := window_length ..

@[simp] theorem contents_assign (z : RingSize w) : (assign z).contents = [] := by
  simp [contents, used, assign]

theorem readAt_eq_window {c : BitVec w} {n : Nat} (hn : n ≤ r.size.bytes) :
    r.readAt c n = window r.data r.size.bytes c.toNat n := by
  rw [readAt, offset_eq, window_eq_spans _ _ r.size.pos hn]

theorem readAt_length (c : BitVec w) (n : Nat) : (r.readAt c n).length = n := by
  simp [readAt]

theorem writeAt_data (c : BitVec w) (xs : List UInt8) :
    (r.writeAt c xs).data = blit (blit r.data (c.toNat % r.size.bytes) (xs.take (r.size.bytes - c.toNat % r.size.bytes)))
      0 (xs.drop (r.size.bytes - c.toNat % r.size.bytes)) := by
  unfold writeAt
  rw [offset_eq]
  rcases Nat.le_total xs.length (r.size.bytes - c.toNat % r.size.bytes) with h | h
  · simp only [Nat.min_eq_left h, List.take_length, List.drop_length, List.take_of_length_le h,
      List.drop_of_length_le h]
  · simp only [Nat.min_eq_right h]

theorem window_writeAt_self (c : BitVec w) {xs : List UInt8} (hxs : xs.length ≤ r.size.bytes) :
    window (r.writeAt c xs).data r.size.bytes c.toNat xs.length = xs := by
  rw [writeAt_data]
  exact window_blit_spans _ _ _ r.size.pos hxs

theorem window_writeAt_of_le {c : BitVec w} {xs : List UInt8} {p q m : Nat}
    (hc : c.toNat % r.size.bytes = q % r.size.bytes) (hpq : p + m ≤ q) (hfit : q + xs.length ≤ p + r.size.bytes) :
    window (r.writeAt c xs).data r.size.bytes p m = window r.data r.size.bytes p m := by
  rw [writeAt_data, hc]
  have hq := Nat.mod_lt q r.size.pos
  have hxs : xs.length ≤ r.size.bytes := by omega
  rw [window_blit_of_cells (n := xs.length) (fun i h₁ h₂ => ?_) hpq hfit,
    window_blit_of_cells (n := xs.length) (fun i h₁ h₂ => ?_) hpq hfit]
  · rw [List.length_take] at h₂
    exact span_first_cells r.size.pos h₁ (by omega)
  · rw [List.length_drop] at h₂
    exact span_second_cells r.size.pos hxs (by omega)

/-! ### The consumer: read, then advance the tail -/

/-- The ring after `ringTail_.store(tail + n)`. -/
def advanceTail (n : Nat) : Ring w := { r with tail := r.tail + BitVec.ofNat w n }

variable {r}

theorem used_advanceTail {n : Nat} (hn : n ≤ r.used) : (r.advanceTail n).used = r.used - n :=
  Cursor.dist_add_right hn

theorem readAt_tail_append_contents {n : Nat} (hn : n ≤ r.used) (hused : r.used ≤ r.size.bytes) :
    r.readAt r.tail n ++ (r.advanceTail n).contents = r.contents := by
  rw [readAt_eq_window _ (hn.trans hused), contents, used_advanceTail hn, contents]
  conv_rhs => rw [show r.used = n + (r.used - n) by omega, window_add]
  congr 1
  exact window_congr_pos (toNat_add_mod r.size.dvd_word _ _) _

/-! ### The producer: write behind the head, then advance it -/

variable (r) in
/-- The ring after `ringHead_.store(head + n)`. -/
def advanceHead (n : Nat) : Ring w := { r with head := r.head + BitVec.ofNat w n }

theorem used_advanceHead {n : Nat} (hfit : r.used + n ≤ r.size.bytes) : (r.advanceHead n).used = r.used + n :=
  Cursor.dist_add_left (Nat.lt_of_le_of_lt hfit r.size.lt)

theorem contents_advanceHead {n : Nat} (hfit : r.used + n ≤ r.size.bytes) :
    (r.advanceHead n).contents = r.contents ++ window r.data r.size.bytes r.head.toNat n := by
  rw [contents, used_advanceHead hfit, contents]
  show window r.data r.size.bytes r.tail.toNat (r.used + n) = _
  rw [window_add, window_congr_pos (toNat_mod_eq_add_dist r.size.dvd_word r.head r.tail)]
  rfl

theorem contents_blit {n off : Nat} {xs : List UInt8} (hfit : r.used + n ≤ r.size.bytes)
    (hsub : ∀ i, off ≤ i → i < off + xs.length → ∃ j < n, i = (r.head.toNat + j) % r.size.bytes) :
    ({ r with data := blit r.data off xs } : Ring w).contents = r.contents := by
  show window (blit r.data off xs) r.size.bytes r.tail.toNat r.used = _
  refine window_blit_of_cells (q := r.tail.toNat + r.used) (n := n) (fun i h₁ h₂ => ?_) le_rfl (by omega)
  obtain ⟨j, hj, he⟩ := hsub i h₁ h₂
  refine ⟨j, hj, he.trans ?_⟩
  rw [Nat.add_mod, toNat_mod_eq_add_dist r.size.dvd_word r.head r.tail, ← Nat.add_mod]
  rfl

theorem free_cell_ne {n i j : Nat} (hfit : r.used + n ≤ r.size.bytes) (hi : i < n) (hj : j < r.used) :
    (r.head.toNat + i) % r.size.bytes ≠ (r.tail.toNat + j) % r.size.bytes := by
  have h : (r.head.toNat + i) % r.size.bytes = (r.tail.toNat + r.used + i) % r.size.bytes := by
    rw [Nat.add_mod, toNat_mod_eq_add_dist r.size.dvd_word r.head r.tail, ← Nat.add_mod]; rfl
  rw [h]
  exact (window_cells_disjoint hj hi le_rfl (by omega)).symm

end Ring

end UacDriver

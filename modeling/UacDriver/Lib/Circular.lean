import Mathlib.Data.List.Basic
import Mathlib.Data.Nat.ModEq
import Mathlib.Tactic.Ring

/-!
# Circular memory

A linear memory `Nat → α` of which `cap` cells are used as a ring. A position is any natural number,
its cell is the position modulo `cap`. `window` lists the cells from a position on, in position order;
`copyOut` and `blit` are the two directions of a block copy from and into the linear memory. The facts
below say what a copy in at most two spans (up to the end of the memory, then from its start) reads and
writes in terms of windows.
-/

namespace Circular

variable {α : Type*}

/-- The `n` cells of the linear memory from `off`. -/
def copyOut (mem : Nat → α) (off n : Nat) : List α :=
  (List.range n).map fun i => mem (off + i)

/-- The memory after copying `xs` to the cells from `off`. -/
def blit (mem : Nat → α) (off : Nat) (xs : List α) : Nat → α := fun i =>
  if h : off ≤ i ∧ i - off < xs.length then xs.get ⟨i - off, h.2⟩ else mem i

/-- The `n` ring cells from position `pos`. -/
def window (mem : Nat → α) (cap pos n : Nat) : List α :=
  (List.range n).map fun i => mem ((pos + i) % cap)

/-! ### Positions -/

/-- Positions less than one revolution apart lie in different cells. -/
theorem slot_ne {cap p q : Nat} (hpq : p < q) (hq : q < p + cap) : p % cap ≠ q % cap := by
  intro h
  have hd : cap ∣ q - p := (Nat.modEq_iff_dvd' hpq.le).1 h
  have := Nat.le_of_dvd (by omega) hd
  omega

theorem slot_eq_of_lt {cap p i : Nat} (h : p % cap + i < cap) : (p + i) % cap = p % cap + i := by
  rw [Nat.add_mod, Nat.mod_eq_of_lt (Nat.lt_of_le_of_lt (Nat.le_add_left i _) h), Nat.mod_eq_of_lt h]

theorem slot_eq_of_ge {cap p i : Nat} (h : cap ≤ p % cap + i) (hi : i ≤ cap) (hcap : 0 < cap) :
    (p + i) % cap = p % cap + i - cap := by
  have hp := Nat.mod_lt p hcap
  rw [← Nat.mod_add_mod, Nat.mod_eq_sub_mod h, Nat.mod_eq_of_lt (by omega)]

/-! ### Linear copies -/

@[simp] theorem copyOut_length (mem : Nat → α) (off n : Nat) : (copyOut mem off n).length = n := by
  simp [copyOut]

theorem getElem?_copyOut {mem : Nat → α} {off n i : Nat} (h : i < n) : (copyOut mem off n)[i]? = some (mem (off + i)) := by
  rw [copyOut, List.getElem?_map, List.getElem?_range h, Option.map_some]

@[simp] theorem copyOut_zero (mem : Nat → α) (off : Nat) : copyOut mem off 0 = [] := rfl

theorem copyOut_add (mem : Nat → α) (off m n : Nat) :
    copyOut mem off (m + n) = copyOut mem off m ++ copyOut mem (off + m) n := by
  simp [copyOut, List.range_add, Nat.add_assoc, Function.comp_def]

theorem copyOut_congr {mem mem' : Nat → α} {off n : Nat} (h : ∀ i, off ≤ i → i < off + n → mem i = mem' i) :
    copyOut mem off n = copyOut mem' off n := by
  refine List.map_congr_left fun i hi => h _ (by omega) ?_
  have := List.mem_range.1 hi; omega

theorem blit_apply_of_lt {mem : Nat → α} {off : Nat} {xs : List α} {i : Nat} (hi : i < xs.length) :
    blit mem off xs (off + i) = xs.get ⟨i, hi⟩ := by
  simp [blit, hi]

theorem blit_apply_of_not {mem : Nat → α} {off : Nat} {xs : List α} {i : Nat}
    (hi : ¬ (off ≤ i ∧ i < off + xs.length)) : blit mem off xs i = mem i := by
  unfold blit
  rw [dif_neg (by omega)]

@[simp] theorem blit_nil (mem : Nat → α) (off : Nat) : blit mem off [] = mem := by
  funext i; simp [blit]

theorem blit_apply (mem : Nat → α) (off : Nat) (xs : List α) (i : Nat) :
    blit mem off xs i = if off ≤ i then xs[i - off]?.getD (mem i) else mem i := by
  unfold blit
  split
  · rename_i h
    rw [if_pos h.1, List.getElem?_eq_getElem h.2, Option.getD_some]
    rfl
  · rename_i h
    split
    · rename_i hle
      rw [List.getElem?_eq_none_iff.2 (by omega), Option.getD_none]
    · rfl

/-- A copy continued where the last one ended. -/
theorem blit_append (mem : Nat → α) (off : Nat) (xs ys : List α) :
    blit (blit mem off xs) (off + xs.length) ys = blit mem off (xs ++ ys) := by
  funext i
  simp only [blit_apply, List.getElem?_append]
  by_cases h : off + xs.length ≤ i
  · have h₁ : off ≤ i := by omega
    have h₂ : ¬i - off < xs.length := by omega
    have h₃ : xs[i - off]? = none := List.getElem?_eq_none_iff.2 (by omega)
    have h₄ : i - (off + xs.length) = i - off - xs.length := by omega
    simp only [h, h₁, h₂, h₃, h₄, if_true, if_false, Option.getD_none]
  · by_cases h₁ : off ≤ i
    · have h₂ : i - off < xs.length := by omega
      simp only [h, h₁, h₂, if_true, if_false]
    · simp only [h, h₁, if_false]

/-- A copy inside a copied block replaces that part of it. -/
theorem blit_replace (mem : Nat → α) (off : Nat) (pre old new post : List α) (hlen : new.length = old.length) :
    blit (blit mem off (pre ++ old ++ post)) (off + pre.length) new = blit mem off (pre ++ new ++ post) := by
  funext i
  simp only [blit_apply, List.getElem?_append, List.length_append]
  by_cases h : off + pre.length ≤ i
  · have h₁ : off ≤ i := by omega
    have h₂ : ¬i - off < pre.length := by omega
    by_cases h₃ : i - off < pre.length + new.length
    · have h₄ : i - (off + pre.length) < new.length := by omega
      have h₅ : i - off - pre.length = i - (off + pre.length) := by omega
      simp only [h, h₁, h₂, h₃, h₅, if_true, if_false, List.getElem?_eq_getElem h₄, Option.getD_some]
    · have h₄ : new[i - (off + pre.length)]? = none := List.getElem?_eq_none_iff.2 (by omega)
      have h₅ : ¬i - off < pre.length + old.length := by omega
      simp only [h, h₁, h₄, h₅, hlen, if_true, if_false, Option.getD_none]
  · by_cases h₁ : off ≤ i
    · have h₂ : i - off < pre.length := by omega
      have h₃ : i - off < pre.length + old.length := by omega
      have h₄ : i - off < pre.length + new.length := by omega
      simp only [h, h₁, h₂, h₃, h₄, if_true, if_false]
    · simp only [h, h₁, if_false]

/-- A block copy, one element at a time. -/
theorem blit_take_succ (mem : Nat → α) (off : Nat) (xs : List α) (k : Nat) :
    blit (blit mem off (xs.take k)) (off + k) xs[k]?.toList = blit mem off (xs.take (k + 1)) := by
  by_cases hk : k < xs.length
  · have hlen : (xs.take k).length = k := List.length_take_of_le hk.le
    have happ := blit_append mem off (xs.take k) xs[k]?.toList
    rw [hlen] at happ
    rw [happ, List.take_add_one]
  · rw [List.getElem?_eq_none_iff.2 (Nat.le_of_not_lt hk), Option.toList_none, blit_nil,
      List.take_of_length_le (Nat.le_of_not_lt hk), List.take_of_length_le (by omega)]

theorem copyOut_blit_self (mem : Nat → α) (off : Nat) (xs : List α) :
    copyOut (blit mem off xs) off xs.length = xs := by
  refine List.ext_get (by simp) fun i h₁ h₂ => ?_
  simp only [copyOut, List.get_eq_getElem, List.getElem_map, List.getElem_range]
  exact blit_apply_of_lt h₂

/-- Reading a copied block back in two parts. -/
theorem copyOut_blit_split (mem : Nat → α) (off : Nat) (xs : List α) {k : Nat} (hk : k ≤ xs.length) :
    copyOut (blit mem off xs) off k = xs.take k ∧ copyOut (blit mem off xs) (off + k) (xs.length - k) = xs.drop k := by
  have hall : copyOut (blit mem off xs) off k ++ copyOut (blit mem off xs) (off + k) (xs.length - k) = xs := by
    rw [← copyOut_add, Nat.add_sub_cancel' hk, copyOut_blit_self]
  constructor
  · conv_rhs => rw [← hall]
    rw [List.take_left' (copyOut_length ..)]
  · conv_rhs => rw [← hall]
    rw [List.drop_left' (copyOut_length ..)]

theorem copyOut_blit_disjoint {mem : Nat → α} {off n o : Nat} {xs : List α}
    (h : off + n ≤ o ∨ o + xs.length ≤ off) : copyOut (blit mem o xs) off n = copyOut mem off n :=
  copyOut_congr fun i _ _ => blit_apply_of_not (by omega)

/-! ### Windows -/

@[simp] theorem window_length (mem : Nat → α) (cap pos n : Nat) : (window mem cap pos n).length = n := by
  simp [window]

@[simp] theorem window_zero (mem : Nat → α) (cap pos : Nat) : window mem cap pos 0 = [] := rfl

theorem window_add (mem : Nat → α) (cap pos m n : Nat) :
    window mem cap pos (m + n) = window mem cap pos m ++ window mem cap (pos + m) n := by
  simp [window, List.range_add, Nat.add_assoc, Function.comp_def]

theorem take_drop_window (mem : Nat → α) {cap pos m a n : Nat} (h : a + n ≤ m) :
    ((window mem cap pos m).drop a).take n = window mem cap (pos + a) n := by
  obtain ⟨rest, rfl⟩ := Nat.exists_eq_add_of_le h
  rw [Nat.add_assoc, window_add, List.drop_append_of_le_length (by simp), List.drop_of_length_le (by simp),
    List.nil_append, window_add, List.take_append_of_le_length (by simp), List.take_of_length_le (by simp)]

theorem window_congr_pos {mem : Nat → α} {cap p q : Nat} (h : p % cap = q % cap) (n : Nat) :
    window mem cap p n = window mem cap q n := by
  refine List.map_congr_left fun i _ => ?_
  rw [Nat.add_mod, h, ← Nat.add_mod]

theorem window_congr_mem {mem mem' : Nat → α} {cap pos n : Nat}
    (h : ∀ i < n, mem ((pos + i) % cap) = mem' ((pos + i) % cap)) :
    window mem cap pos n = window mem' cap pos n :=
  List.map_congr_left fun i hi => h i (List.mem_range.1 hi)

/-- A window is read in at most two spans: up to the end of the memory, then from its start. -/
theorem window_eq_spans (mem : Nat → α) {cap n : Nat} (pos : Nat) (hcap : 0 < cap) (hn : n ≤ cap) :
    window mem cap pos n = copyOut mem (pos % cap) (min n (cap - pos % cap)) ++
      copyOut mem 0 (n - min n (cap - pos % cap)) := by
  have hp := Nat.mod_lt pos hcap
  set f := min n (cap - pos % cap) with hf
  conv_lhs => rw [show n = f + (n - f) by omega, window_add]
  congr 1
  · refine List.map_congr_left fun i hi => ?_
    have := List.mem_range.1 hi
    rw [slot_eq_of_lt (by omega)]
  · refine List.map_congr_left fun i hi => ?_
    have := List.mem_range.1 hi
    rw [Nat.add_assoc, slot_eq_of_ge (by omega) (by omega) hcap]
    congr 1; omega

theorem window_cells_disjoint {cap p q m n i j : Nat} (hi : i < m) (hj : j < n) (hpq : p + m ≤ q)
    (hfit : q + n ≤ p + cap) : (p + i) % cap ≠ (q + j) % cap :=
  slot_ne (by omega) (by omega)

/-- Writing into the cells of the window at `q` leaves the window at `p` alone. -/
theorem window_blit_of_cells {mem : Nat → α} {cap p q m n off : Nat} {xs : List α}
    (hsub : ∀ i, off ≤ i → i < off + xs.length → ∃ j < n, i = (q + j) % cap)
    (hpq : p + m ≤ q) (hfit : q + n ≤ p + cap) :
    window (blit mem off xs) cap p m = window mem cap p m := by
  refine window_congr_mem fun i hi => blit_apply_of_not ?_
  rintro ⟨h₁, h₂⟩
  obtain ⟨j, hj, he⟩ := hsub _ h₁ h₂
  exact window_cells_disjoint hi hj hpq hfit he

theorem span_first_cells {cap pos n i : Nat} (hcap : 0 < cap) (h₁ : pos % cap ≤ i)
    (h₂ : i < pos % cap + min n (cap - pos % cap)) : ∃ j < n, i = (pos + j) % cap := by
  have hp := Nat.mod_lt pos hcap
  exact ⟨i - pos % cap, by omega, by rw [slot_eq_of_lt (by omega)]; omega⟩

theorem span_second_cells {cap pos n i : Nat} (hcap : 0 < cap) (hn : n ≤ cap)
    (h : i < n - min n (cap - pos % cap)) : ∃ j < n, i = (pos + j) % cap := by
  have hp := Nat.mod_lt pos hcap
  exact ⟨cap - pos % cap + i, by omega, by rw [slot_eq_of_ge (by omega) (by omega) hcap]; omega⟩

/-- Copying `xs` in at most two spans to position `pos` writes the window of `xs.length` cells there. -/
theorem window_blit_spans (mem : Nat → α) {cap : Nat} (pos : Nat) (xs : List α) (hcap : 0 < cap)
    (hn : xs.length ≤ cap) :
    window (blit (blit mem (pos % cap) (xs.take (cap - pos % cap))) 0 (xs.drop (cap - pos % cap)))
      cap pos xs.length = xs := by
  have hp := Nat.mod_lt pos hcap
  rw [window_eq_spans _ pos hcap hn]
  conv_rhs => rw [← List.take_append_drop (cap - pos % cap) xs]
  congr 1
  · rw [copyOut_blit_disjoint (by simp; omega)]
    conv_lhs => rw [show min xs.length (cap - pos % cap) = (xs.take (cap - pos % cap)).length by simp [Nat.min_comm]]
    exact copyOut_blit_self _ _ _
  · conv_lhs => rw [show xs.length - min xs.length (cap - pos % cap) = (xs.drop (cap - pos % cap)).length by
      simp; omega]
    exact copyOut_blit_self _ _ _

end Circular

import Mathlib.Data.List.Range
import Mathlib.Logic.Function.Basic

/-!
# A queue in the first cells of an array

The first `count` cells are the queue. A push writes the cell at the count; what is taken is taken from the front, and the
cells behind it are then copied down, in place and in order.
-/

namespace Slots

variable {α : Type*} {cell : Nat → α}

def queue (cell : Nat → α) (count : Nat) : List α := (List.range count).map cell

@[simp] theorem length_queue (cell : Nat → α) (count : Nat) : (queue cell count).length = count := by
  rw [queue, List.length_map, List.length_range]

theorem queue_succ (cell : Nat → α) (count : Nat) : queue cell (count + 1) = queue cell count ++ [cell count] := by
  rw [queue, List.range_succ, List.map_append]
  rfl

theorem queue_congr {cell' : Nat → α} {count : Nat} (h : ∀ k < count, cell' k = cell k) :
    queue cell' count = queue cell count :=
  List.map_congr_left fun k hk => h k (List.mem_range.1 hk)

theorem take_queue {n count : Nat} (h : n ≤ count) : (queue cell count).take n = queue cell n := by
  rw [queue, ← List.map_take, List.take_range, Nat.min_eq_left h]
  rfl

/-- The queue without its first `n`, when their cells are those behind. -/
theorem queue_drop {front : Nat → α} {n count : Nat} (h : ∀ k < count - n, front k = cell (k + n)) :
    queue front (count - n) = (queue cell count).drop n := by
  refine List.ext_getElem ?_ fun k hk hk' => ?_
  · rw [length_queue, List.length_drop, length_queue]
  · rw [length_queue] at hk
    simp only [queue, List.getElem_map, List.getElem_range, List.getElem_drop]
    rw [h k hk, Nat.add_comm]

/-- The copy of the next `remaining` cells from `i` on, each down by `n`. -/
def shiftDown (n : Nat) : Nat → Nat → (Nat → α) → Nat → α
  | 0, _, cell => cell
  | remaining + 1, i, cell => shiftDown n remaining (i + 1) (Function.update cell (i - n) (cell i))

/-- A cell is read before it is written, so the copy in place is that of the cells as they were. -/
theorem shiftDown_apply {n i : Nat} (hn : n ≤ i) (remaining : Nat) (cell : Nat → α) (k : Nat) :
    shiftDown n remaining i cell k = if i - n ≤ k ∧ k < i - n + remaining then cell (k + n) else cell k := by
  induction remaining generalizing i cell with
  | zero =>
    rw [if_neg (by omega)]
    rfl
  | succ remaining ih =>
    rw [shiftDown, ih (by omega)]
    rcases Nat.lt_trichotomy k (i - n) with hk | rfl | hk
    · rw [if_neg (by omega), if_neg (by omega), Function.update_of_ne (by omega)]
    · rw [if_neg (by omega), if_pos (by omega), Function.update_self, Nat.sub_add_cancel hn]
    · by_cases hlt : k < i - n + (remaining + 1)
      · rw [if_pos (by omega), if_pos (by omega), Function.update_of_ne (by omega)]
      · rw [if_neg (by omega), if_neg (by omega), Function.update_of_ne (by omega)]

end Slots

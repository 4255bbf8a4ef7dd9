import Mathlib.Data.Finset.Max
import Mathlib.Data.Finset.Card

/-!
# Ranks in a finite set

The rank of an element counted from below and from above, and the `k` highest elements of a set. A scan in increasing
order sees the first count; what it picks out by it is described by the second.
-/

namespace Ranks

variable {α : Type*} [LinearOrder α]

def below (s : Finset α) (x : α) : Nat := (s.filter (· < x)).card

def above (s : Finset α) (x : α) : Nat := (s.filter (x < ·)).card

/-- The `k` highest elements. -/
def top (k : Nat) (s : Finset α) : Finset α := s.filter fun x => above s x < k

/-- The `k` lowest elements. -/
def bottom (k : Nat) (s : Finset α) : Finset α := s.filter fun x => below s x < k

variable {k : Nat} {s : Finset α} {x y : α}

theorem top_subset : top k s ⊆ s := Finset.filter_subset _ s

theorem below_add_above (hx : x ∈ s) : below s x + above s x + 1 = s.card := by
  have hrest : s.filter (¬ · < x) = insert x (s.filter (x < ·)) := by
    ext y
    simp only [Finset.mem_filter, Finset.mem_insert, not_lt]
    constructor
    · rintro ⟨hy, hle⟩
      rcases hle.eq_or_lt with he | hlt
      · exact .inl he.symm
      · exact .inr ⟨hy, hlt⟩
    · rintro (rfl | ⟨hy, hlt⟩)
      · exact ⟨hx, le_rfl⟩
      · exact ⟨hy, hlt.le⟩
  have hself : x ∉ s.filter (x < ·) := fun h => lt_irrefl x (Finset.mem_filter.1 h).2
  rw [← Finset.card_filter_add_card_filter_not (s := s) (· < x), hrest, Finset.card_insert_of_notMem hself, below, above]
  omega

/-- The `k` highest elements, as a scan from below finds them. -/
theorem mem_top_iff_below : x ∈ top k s ↔ x ∈ s ∧ s.card - k ≤ below s x := by
  rw [top, Finset.mem_filter]
  refine and_congr_right fun hx => ?_
  have hrank := below_add_above hx
  omega

/-- What is left out is below what is taken. -/
theorem lt_of_mem_top (hx : x ∈ top k s) (hy : y ∈ s) (hno : y ∉ top k s) : y < x := by
  by_contra hle
  have hfewer : above s y ≤ above s x := by
    refine Finset.card_le_card fun z hz => ?_
    obtain ⟨hz, hlt⟩ := Finset.mem_filter.1 hz
    exact Finset.mem_filter.2 ⟨hz, (not_lt.1 hle).trans_lt hlt⟩
  exact hno (Finset.mem_filter.2 ⟨hy, hfewer.trans_lt (Finset.mem_filter.1 hx).2⟩)

/-- A new highest element takes the first of the `k + 1` places. -/
theorem top_insert_max (hmax : ∀ y ∈ s, y < x) : top (k + 1) (insert x s) = insert x (top k s) := by
  have hnone : above (insert x s) x = 0 := by
    refine Finset.card_eq_zero.2 (Finset.filter_eq_empty_iff.2 fun y hy hlt => ?_)
    rcases Finset.mem_insert.1 hy with rfl | hy
    · exact lt_irrefl y hlt
    · exact lt_asymm hlt (hmax y hy)
  have hmore {y : α} (hy : y ∈ s) : above (insert x s) y = above s y + 1 := by
    have hself : x ∉ s.filter (y < ·) := fun h => lt_irrefl x (hmax x (Finset.mem_filter.1 h).1)
    rw [above, Finset.filter_insert, if_pos (hmax y hy), Finset.card_insert_of_notMem hself, above]
  ext y
  simp only [top, Finset.mem_filter, Finset.mem_insert]
  constructor
  · rintro ⟨rfl | hy, hlt⟩
    · exact .inl rfl
    · rw [hmore hy] at hlt
      exact .inr ⟨hy, Nat.lt_of_succ_lt_succ hlt⟩
  · rintro (rfl | ⟨hy, hlt⟩)
    · exact ⟨.inl rfl, hnone ▸ Nat.succ_pos k⟩
    · rw [hmore hy]
      exact ⟨.inr hy, Nat.succ_lt_succ hlt⟩

theorem card_top (k : Nat) (s : Finset α) : (top k s).card = min k s.card := by
  induction s using Finset.induction_on_max generalizing k with
  | empty => rw [Finset.subset_empty.1 top_subset, Finset.card_empty, Nat.min_zero]
  | insert x s hmax ih =>
    have hnew : x ∉ s := fun hx => lt_irrefl x (hmax x hx)
    cases k with
    | zero => simp [top]
    | succ k =>
      rw [top_insert_max hmax, Finset.card_insert_of_notMem fun hx => hnew (top_subset hx), ih,
        Finset.card_insert_of_notMem hnew]
      omega

/-! ### The lowest elements -/

theorem bottom_subset : bottom k s ⊆ s := Finset.filter_subset _ s

theorem bottom_of_card_le (h : s.card ≤ k) : bottom k s = s := by
  refine Finset.filter_true_of_mem fun x hx => ?_
  have hrank := below_add_above hx
  omega

/-- Without its `k` highest elements a set is its lowest. -/
theorem rest_of_top : s \ top k s = bottom (s.card - k) s := by
  ext x
  rw [Finset.mem_sdiff, mem_top_iff_below, bottom, Finset.mem_filter]
  refine and_congr_right fun hx => ?_
  rw [and_iff_right hx, not_le]

theorem card_bottom (k : Nat) (s : Finset α) : (bottom k s).card = min k s.card := by
  rcases Nat.le_total s.card k with hle | hle
  · rw [bottom_of_card_le hle, Nat.min_eq_right hle]
  · have hsub : s.card - (s.card - k) = k := Nat.sub_sub_self hle
    rw [← hsub, ← rest_of_top, Finset.card_sdiff_of_subset top_subset, card_top]
    omega

/-- What is below an element of the lowest is among the lowest. -/
theorem below_bottom (hx : x ∈ bottom k s) : below (bottom k s) x = below s x := by
  refine congrArg Finset.card ?_
  ext y
  simp only [Finset.mem_filter]
  refine and_congr_left fun hlt => ⟨fun hy => bottom_subset hy, fun hy => Finset.mem_filter.2 ⟨hy, ?_⟩⟩
  have hfewer : below s y ≤ below s x := by
    refine Finset.card_le_card fun z hz => ?_
    obtain ⟨hz, hzy⟩ := Finset.mem_filter.1 hz
    exact Finset.mem_filter.2 ⟨hz, hzy.trans hlt⟩
  exact hfewer.trans_lt (Finset.mem_filter.1 hx).2

theorem bottom_bottom (j k : Nat) (s : Finset α) : bottom j (bottom k s) = bottom (min j k) s := by
  ext x
  constructor
  · intro hx
    obtain ⟨hk, hj⟩ := Finset.mem_filter.1 hx
    rw [below_bottom hk] at hj
    exact Finset.mem_filter.2 ⟨bottom_subset hk, Nat.lt_min.2 ⟨hj, (Finset.mem_filter.1 hk).2⟩⟩
  · intro hx
    obtain ⟨hs, hlt⟩ := Finset.mem_filter.1 hx
    obtain ⟨hj, hk⟩ := Nat.lt_min.1 hlt
    have hmem : x ∈ bottom k s := Finset.mem_filter.2 ⟨hs, hk⟩
    exact Finset.mem_filter.2 ⟨hmem, (below_bottom hmem).trans_lt hj⟩

/-- The one with nothing below it. -/
theorem bottom_one (hx : x ∈ s) (hnone : ∀ y ∈ s, ¬y < x) : bottom 1 s = {x} := by
  have hzero {y : α} : below s y < 1 ↔ ∀ z ∈ s, ¬z < y := by
    rw [Nat.lt_one_iff, below, Finset.card_eq_zero, Finset.filter_eq_empty_iff]
  ext y
  rw [bottom, Finset.mem_filter, Finset.mem_singleton, hzero]
  constructor
  · rintro ⟨hy, hlow⟩
    exact le_antisymm (not_lt.1 (hlow x hx)) (not_lt.1 (hnone y hy))
  · rintro rfl
    exact ⟨hx, hnone⟩

/-! ### Scans of the naturals -/

/-- A scan passes `i`. -/
theorem filter_lt_succ (s : Finset Nat) (i : Nat) :
    s.filter (· < i + 1) = if i ∈ s then insert i (s.filter (· < i)) else s.filter (· < i) := by
  ext c
  split
  · rename_i hmem
    simp only [Finset.mem_filter, Finset.mem_insert, Nat.lt_succ_iff_lt_or_eq]
    constructor
    · rintro ⟨hc, hlt | rfl⟩
      · exact .inr ⟨hc, hlt⟩
      · exact .inl rfl
    · rintro (rfl | ⟨hc, hlt⟩)
      · exact ⟨hmem, .inr rfl⟩
      · exact ⟨hc, .inl hlt⟩
  · rename_i hno
    simp only [Finset.mem_filter, Nat.lt_succ_iff_lt_or_eq]
    refine and_congr_right fun hc => or_iff_left ?_
    rintro rfl
    exact hno hc

theorem filter_lt_zero (s : Finset Nat) : s.filter (· < 0) = ∅ := Finset.filter_eq_empty_iff.2 fun c _ => Nat.not_lt_zero c

theorem below_succ (s : Finset Nat) (i : Nat) : below s (i + 1) = below s i + if i ∈ s then 1 else 0 := by
  rw [below, filter_lt_succ]
  split
  · exact Finset.card_insert_of_notMem fun h => lt_irrefl i (Finset.mem_filter.1 h).2
  · rfl

theorem below_zero (s : Finset Nat) : below s 0 = 0 := Finset.card_eq_zero.2 (filter_lt_zero s)

end Ranks

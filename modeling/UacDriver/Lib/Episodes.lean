import Mathlib.Data.List.Induction
import Mathlib.Data.List.SplitBy
import Mathlib.Data.Set.Insert
import Mathlib.Order.Bounds.Basic

/-!
# Maximal runs

`maximalRuns l` is the number of maximal runs of consecutive `true`. A counter that is stepped when a flag goes up, with
the flag following the last element, counts them: each run where it begins, whatever its length. A counter that every
`true` steps and every `false` clears has the length of the run at the end, and its high water that of the longest.
-/

namespace Episodes

def maximalRuns (l : List Bool) : Nat := (l.splitBy (· == ·)).countP fun run => run.head? == some true

/-- The steps of the counter, for a flag that starts as `up`. -/
def rises : Bool → List Bool → Nat
  | _, [] => 0
  | up, b :: l => (if b && !up then 1 else 0) + rises b l

theorem head?_reverse_run {b : Bool} {run : List Bool} (hrun : ∀ x ∈ run, x = b) :
    (b :: run).reverse.head? = some b := by
  rw [List.head?_reverse, List.getLast?_eq_some_getLast (List.cons_ne_nil b run)]
  rcases List.mem_cons.1 (List.getLast_mem (List.cons_ne_nil b run)) with h | h
  · rw [h]
  · rw [hrun _ h]

/-- The run being collected is `b` and what is in `run`, all of it equal to `b`. -/
theorem countP_splitBy_loop (l : List Bool) {b : Bool} {run : List Bool} {done : List (List Bool)}
    (hrun : ∀ x ∈ run, x = b) :
    (List.splitBy.loop (· == ·) l b run done).countP (fun run => run.head? == some true) =
      done.countP (fun run => run.head? == some true) + (if b then 1 else 0) + rises b l := by
  induction l generalizing b run done with
  | nil =>
    rw [List.splitBy.loop, List.countP_reverse, List.countP_cons, head?_reverse_run hrun]
    cases b <;> rfl
  | cons a l ih =>
    rw [List.splitBy.loop, rises]
    split
    · rename_i heq
      obtain rfl : b = a := beq_iff_eq.1 heq
      rw [ih (List.forall_mem_cons.2 ⟨rfl, hrun⟩), Bool.and_not_self, if_neg Bool.false_ne_true, Nat.zero_add]
    · rename_i hne
      rw [ih (fun x hx => absurd hx List.not_mem_nil), List.countP_cons, head?_reverse_run hrun]
      cases a <;> cases b
      · cases hne
      · exact congrArg _ (Nat.zero_add _).symm
      · exact Nat.add_assoc ..
      · cases hne

theorem maximalRuns_eq_rises (l : List Bool) : maximalRuns l = rises false l := by
  cases l with
  | nil => rfl
  | cons b l =>
    refine (countP_splitBy_loop l (fun x hx => absurd hx List.not_mem_nil)).trans ?_
    rw [rises, List.countP_nil, Nat.zero_add, Bool.not_false, Bool.and_true]

theorem rises_concat (up : Bool) (l : List Bool) (b : Bool) :
    rises up (l ++ [b]) = rises up l + if b && !l.getLastD up then 1 else 0 := by
  induction l generalizing up with
  | nil => exact Nat.add_comm ..
  | cons a l ih =>
    rw [List.cons_append, rises, rises, ih a, Nat.add_assoc, List.getLastD_cons]

@[simp] theorem maximalRuns_nil : maximalRuns [] = 0 := rfl

/-- One more element: a run begins if it is `true` and the last one was not. -/
theorem maximalRuns_concat (l : List Bool) (b : Bool) :
    maximalRuns (l ++ [b]) = maximalRuns l + if b && !l.getLastD false then 1 else 0 := by
  rw [maximalRuns_eq_rises, maximalRuns_eq_rises, rises_concat]

/-! ### The longest run -/

/-- The length of the run of `true` at the end. -/
def trailing (l : List Bool) : Nat := (l.reverse.takeWhile id).length

@[simp] theorem trailing_nil : trailing [] = 0 := rfl

theorem trailing_concat (l : List Bool) (b : Bool) : trailing (l ++ [b]) = if b then trailing l + 1 else 0 := by
  cases b <;> simp [trailing]

theorem replicate_suffix_iff (l : List Bool) (n : Nat) : List.replicate n true <:+ l ↔ n ≤ trailing l := by
  induction l using List.reverseRecOn generalizing n with
  | nil =>
    rw [List.suffix_nil, List.replicate_eq_nil_iff, trailing_nil]
    exact Nat.le_zero.symm
  | append_singleton l b ih =>
    rw [trailing_concat]
    cases n with
    | zero => exact ⟨fun _ => Nat.zero_le _, fun _ => List.nil_suffix⟩
    | succ n =>
      rw [List.suffix_concat_iff, List.replicate_succ']
      cases b with
      | false => simp
      | true =>
        rw [if_pos rfl, Nat.add_le_add_iff_right, ← ih]
        constructor
        · rintro (hnil | ⟨t, heq, ht⟩)
          · simp at hnil
          · rwa [List.append_cancel_right heq]
        · exact fun h => .inr ⟨_, rfl, h⟩

/-- The lengths of the runs of `true` in `l`, maximal or not. -/
def runLengths (l : List Bool) : Set Nat := {n | List.replicate n true <:+: l}

theorem mem_runLengths_concat {l : List Bool} {b : Bool} {n : Nat} :
    n ∈ runLengths (l ++ [b]) ↔ n ∈ runLengths l ∨ n ≤ trailing (l ++ [b]) := by
  rw [← replicate_suffix_iff]
  exact List.infix_concat_iff.trans or_comm

theorem isGreatest_runLengths_nil : IsGreatest (runLengths []) 0 := by
  refine ⟨List.infix_nil.2 rfl, fun n hn => ?_⟩
  exact Nat.le_of_eq ((List.replicate_eq_nil_iff true).1 (List.infix_nil.1 hn))

/-- The high water of the run at the end. -/
theorem isGreatest_runLengths_concat {l : List Bool} {m : Nat} (h : IsGreatest (runLengths l) m) (b : Bool) :
    IsGreatest (runLengths (l ++ [b])) (max m (trailing (l ++ [b]))) := by
  constructor
  · rw [mem_runLengths_concat]
    rcases Nat.le_total m (trailing (l ++ [b])) with hle | hle
    · rw [Nat.max_eq_right hle]
      exact .inr (Nat.le_refl _)
    · rw [Nat.max_eq_left hle]
      exact .inl h.1
  · intro n hn
    rcases mem_runLengths_concat.1 hn with hn | hn
    · exact (h.2 hn).trans (Nat.le_max_left _ _)
    · exact hn.trans (Nat.le_max_right _ _)

end Episodes

import Mathlib.Data.List.Basic

/-!
# Searching for the first attempt that succeeds

`first attempt s as` makes one attempt for each element in turn, each in the state the last one has left, and stops at
the first that succeeds. The two rules carry an invariant over the elements that have failed: to the end of the list
when none succeeds, else to the state in which the winning attempt is made.
-/

namespace Search

variable {σ α : Type*}

def first (attempt : σ → α → Bool × σ) : σ → List α → Option α × σ
  | s, [] => (none, s)
  | s, a :: as => if (attempt s a).1 then (some a, (attempt s a).2) else first attempt (attempt s a).2 as

variable {attempt : σ → α → Bool × σ} {I : List α → σ → Prop}

theorem first_none (hI : ∀ failed s a, I failed s → (attempt s a).1 = false → I (failed ++ [a]) (attempt s a).2)
    {failed : List α} {s : σ} (hs : I failed s) {as : List α} (h : (first attempt s as).1 = none) :
    I (failed ++ as) (first attempt s as).2 := by
  induction as generalizing failed s with
  | nil => rwa [List.append_nil]
  | cons a as ih =>
    rw [first] at h ⊢
    split at h
    · exact absurd h (Option.some_ne_none a)
    · rename_i hfail
      rw [if_neg hfail, List.append_cons]
      exact ih (hI failed s a hs (Bool.eq_false_iff.2 hfail)) h

theorem first_some (hI : ∀ failed s a, I failed s → (attempt s a).1 = false → I (failed ++ [a]) (attempt s a).2)
    {failed : List α} {s : σ} (hs : I failed s) {as : List α} {a : α} (h : (first attempt s as).1 = some a) :
    ∃ pre post t, as = pre ++ a :: post ∧ I (failed ++ pre) t ∧ (attempt t a).1 = true ∧
      (first attempt s as).2 = (attempt t a).2 := by
  induction as generalizing failed s with
  | nil => exact absurd h.symm (Option.some_ne_none a)
  | cons b as ih =>
    rw [first] at h ⊢
    split at h
    · rename_i hwin
      obtain rfl := Option.some.inj h
      rw [if_pos hwin]
      exact ⟨[], as, s, rfl, by rwa [List.append_nil], hwin, rfl⟩
    · rename_i hfail
      obtain ⟨pre, post, t, rfl, ht, hwin, hlast⟩ := ih (hI failed s b hs (Bool.eq_false_iff.2 hfail)) h
      rw [if_neg hfail]
      exact ⟨b :: pre, post, t, rfl, by rwa [List.append_cons], hwin, hlast⟩

end Search

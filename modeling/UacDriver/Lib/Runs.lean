import Mathlib.Algebra.GroupWithZero.Nat
import Mathlib.Data.List.Basic
import Mathlib.Data.List.Induction

/-!
# Runs of a step function

A system is a total step function `σ → α → σ`: an action that is not enabled leaves the state alone. A run
is the fold over a list of actions. `Meets` says that every action of a run is taken in a state that
satisfies a condition; the two invariant rules are the inductions every run-wide result uses.
-/

namespace Runs

variable {σ α : Type*} (step : σ → α → σ)

def run (s : σ) (as : List α) : σ := as.foldl step s

@[simp] theorem run_nil (s : σ) : run step s [] = s := rfl

@[simp] theorem run_cons (s : σ) (a : α) (as : List α) : run step s (a :: as) = run step (step s a) as := rfl

theorem run_append (s : σ) (as bs : List α) : run step s (as ++ bs) = run step (run step s as) bs :=
  List.foldl_append ..

/-- Every action of the run is taken in a state in which `C` allows it. -/
def Meets (C : σ → α → Prop) : σ → List α → Prop
  | _, [] => True
  | s, a :: as => C s a ∧ Meets C (step s a) as

instance Meets.decidable {C : σ → α → Prop} [∀ s a, Decidable (C s a)] :
    ∀ (s : σ) (as : List α), Decidable (Meets step C s as)
  | _, [] => inferInstanceAs (Decidable True)
  | s, a :: as => @instDecidableAnd _ _ _ (Meets.decidable (step s a) as)

/-- What the actions of a run record, each in the state it is taken in. -/
def log {β : Type*} (f : σ → α → List β) : σ → List α → List β
  | _, [] => []
  | s, a :: as => f s a ++ log f (step s a) as

variable {step}

/-- What holds at first and is kept by every step holds after every run. -/
theorem run_invariant {I : σ → Prop} (hstep : ∀ s a, I s → I (step s a)) {s : σ} (hs : I s) (as : List α) :
    I (run step s as) := by
  induction as generalizing s with
  | nil => exact hs
  | cons a as ih => exact ih (hstep s a hs)

theorem Meets.of_forall {C : α → Prop} {as : List α} (h : ∀ a ∈ as, C a) (s : σ) :
    Meets step (fun _ a => C a) s as := by
  induction as generalizing s with
  | nil => trivial
  | cons a as ih => exact ⟨h a List.mem_cons_self, ih (fun b hb => h b (List.mem_cons_of_mem _ hb)) _⟩

theorem Meets.left {C : σ → α → Prop} {pre post : List α} {s : σ} (h : Meets step C s (pre ++ post)) :
    Meets step C s pre := by
  induction pre generalizing s with
  | nil => trivial
  | cons a pre ih => exact ⟨h.1, ih h.2⟩

theorem Meets.at_append {C : σ → α → Prop} {pre post : List α} {a : α} {s : σ}
    (h : Meets step C s (pre ++ a :: post)) : C (run step s pre) a := by
  induction pre generalizing s with
  | nil => exact h.1
  | cons b pre ih => exact ih h.2

/-- The invariant rule for runs that meet a condition. -/
theorem Meets.invariant {C : σ → α → Prop} {I : σ → Prop} (hstep : ∀ s a, C s a → I s → I (step s a)) {s : σ}
    {as : List α} (h : Meets step C s as) (hs : I s) : I (run step s as) := by
  induction as generalizing s with
  | nil => exact hs
  | cons a as ih => exact ih h.2 (hstep s a h.1 hs)

variable (step) in
/-- What the actions of a run record, from the last of them on that begins the record anew. -/
def logSince {β : Type*} (anew : σ → α → Bool) (f : σ → α → List β) : List β → σ → List α → List β
  | l, _, [] => l
  | l, s, a :: as => logSince anew f (if anew s a then [] else l ++ f s a) (step s a) as

theorem logSince_rule {β : Type*} {anew : σ → α → Bool} {f : σ → α → List β} {P : σ → List β → Prop}
    (hanew : ∀ s l a, anew s a = true → P s l → P (step s a) [])
    (hkeep : ∀ s l a, anew s a = false → P s l → P (step s a) (l ++ f s a)) {s : σ} {l : List β} (h : P s l) (as : List α) :
    P (run step s as) (logSince step anew f l s as) := by
  induction as generalizing s l with
  | nil => exact h
  | cons a as ih =>
    refine ih ?_
    cases ha : anew s a with
    | true => exact hanew s l a ha h
    | false => exact hkeep s l a ha h

variable (step) in
/-- What the actions of a run record, in the pieces that the actions which begin the record anew divide it into. -/
def pieces {β : Type*} (anew : σ → α → Bool) (f : σ → α → List β) : List β → σ → List α → List (List β)
  | l, _, [] => [l]
  | l, s, a :: as =>
    if anew s a then l :: pieces anew f [] (step s a) as else pieces anew f (l ++ f s a) (step s a) as

/-- Two systems over the same actions: a relation that every allowed action keeps is there after both runs. -/
theorem run_simulates {τ : Type*} {step' : τ → α → τ} {C : α → Prop} {R : σ → τ → Prop}
    (hstep : ∀ s t a, C a → R s t → R (step s a) (step' t a)) {s : σ} {t : τ} {as : List α} (has : ∀ a ∈ as, C a)
    (h : R s t) : R (run step s as) (run step' t as) := by
  induction as generalizing s t with
  | nil => exact h
  | cons a as ih => exact ih (fun b hb => has b (List.mem_cons_of_mem _ hb)) (hstep s t a (has a List.mem_cons_self) h)

/-- Two runs of one system. -/
theorem run_related {C : α → Prop} {R : σ → σ → Prop} (hstep : ∀ s t a, C a → R s t → R (step s a) (step t a)) {s t : σ}
    {as : List α} (has : ∀ a ∈ as, C a) (h : R s t) : R (run step s as) (run step t as) :=
  run_simulates hstep has h

/-- The potential rule: while `Q` lasts, an action of cost `c` takes at least `c` off the potential `φ`, but for what
the action grants. The actions of a run that has not ended `Q` cost no more than the potential and all grants. -/
theorem run_potential {I Q : σ → Prop} {φ : σ → Nat} {cost grant : α → Nat} (hI : ∀ s a, I s → I (step s a))
    (hQ : ∀ s a, Q (step s a) → Q s)
    (hφ : ∀ s a, I s → Q (step s a) → φ (step s a) + cost a ≤ φ s + grant a) {s : σ} (hs : I s) {as : List α}
    (h : Q (run step s as)) :
    φ (run step s as) + (as.map cost).sum ≤ φ s + (as.map grant).sum := by
  have hback (as : List α) : ∀ s, Q (run step s as) → Q s := by
    induction as with
    | nil => exact fun _ h => h
    | cons a as ih => exact fun s h => hQ s a (ih _ h)
  induction as generalizing s with
  | nil => exact Nat.le_refl _
  | cons a as ih =>
    have hrest := ih (hI s a hs) h
    have hfirst := hφ s a hs (hback as _ h)
    rw [run_cons, List.map_cons, List.map_cons, List.sum_cons, List.sum_cons]
    omega

/-- The invariant rule for a fallible loop over a list: `P xs s` relates the state to what is left. -/
theorem foldlM_rule {step : σ → α → Option σ} {P : List α → σ → Prop}
    (hstep : ∀ x xs s s', P (x :: xs) s → step s x = some s' → P xs s') {xs : List α} {s s' : σ} (h : P xs s)
    (he : xs.foldlM step s = some s') : P [] s' := by
  induction xs generalizing s with
  | nil =>
    cases he
    exact h
  | cons x xs ih =>
    rw [List.foldlM_cons, Option.bind_eq_bind, Option.bind_eq_some_iff] at he
    obtain ⟨s₁, h₁, h₂⟩ := he
    exact ih (hstep x xs s s₁ h h₁) h₂

/-- A loop that overwrites its state ends with the last value written. -/
theorem foldl_override {p : α → Bool} {f : α → σ} (xs : List α) (s : σ) :
    xs.foldl (fun s x => if p x then f x else s) s = ((xs.reverse.find? p).map f).getD s := by
  induction xs using List.reverseRecOn with
  | nil => rfl
  | append_singleton xs x ih =>
    rw [List.foldl_append, ih, List.reverse_append, List.reverse_singleton, List.singleton_append, List.find?_cons]
    cases hp : p x with
    | true => simp only [List.foldl_cons, List.foldl_nil, hp, if_true, Option.map_some, Option.getD_some]
    | false => simp only [List.foldl_cons, List.foldl_nil, hp, Bool.false_eq_true, if_false]

/-- A loop that keeps the first element, and gives it up once for the first that is preferred. -/
theorem foldl_prefer {p : α → Bool} (xs : List α) :
    xs.foldl (fun kept x => if kept.isNone || (p x && !kept.any p) then some x else kept) none =
      (xs.find? p).or xs.head? := by
  have hstays (xs : List α) {x : α} (hx : p x = true) :
      xs.foldl (fun kept x => if kept.isNone || (p x && !kept.any p) then some x else kept) (some x) = some x := by
    induction xs with
    | nil => rfl
    | cons y ys ih =>
      rw [List.foldl_cons]
      simpa [hx] using ih
  have hwaits (xs : List α) {x : α} (hx : p x = false) :
      xs.foldl (fun kept x => if kept.isNone || (p x && !kept.any p) then some x else kept) (some x) =
        (xs.find? p).or (some x) := by
    induction xs with
    | nil => rfl
    | cons y ys ih =>
      rw [List.foldl_cons, List.find?_cons]
      cases hy : p y with
      | true => simpa [hx, hy] using hstays ys hy
      | false => simpa [hy] using ih
  cases xs with
  | nil => rfl
  | cons x xs =>
    rw [List.foldl_cons, List.find?_cons]
    cases hx : p x with
    | true => simpa using hstays xs hx
    | false => simpa using hwaits xs hx

/-- A loop that only adds members has added what each of its rounds adds. -/
theorem mem_foldl {β : Type*} {add : List β → α → List β} {P : α → β → Prop}
    (h : ∀ s x y, y ∈ add s x ↔ y ∈ s ∨ P x y) (xs : List α) (s : List β) (y : β) :
    y ∈ xs.foldl add s ↔ y ∈ s ∨ ∃ x ∈ xs, P x y := by
  induction xs generalizing s with
  | nil => simp only [List.foldl_nil, List.not_mem_nil, false_and, exists_false, or_false]
  | cons x xs ih => rw [List.foldl_cons, ih, h, or_assoc, List.exists_mem_cons_iff]

/-- A fallible loop none of whose rounds fails is the loop. -/
theorem foldlM_eq_some {step? : σ → α → Option σ} {step : σ → α → σ} {xs : List α}
    (h : ∀ s, ∀ x ∈ xs, step? s x = some (step s x)) (s : σ) : xs.foldlM step? s = some (xs.foldl step s) := by
  induction xs generalizing s with
  | nil => rfl
  | cons x xs ih =>
    rw [List.foldlM_cons, h s x List.mem_cons_self, List.foldl_cons]
    exact ih (fun s y hy => h s y (List.mem_cons_of_mem _ hy)) (step s x)

theorem mapM_eq_some {β : Type*} {f? : α → Option β} {f : α → β} {xs : List α} (h : ∀ x ∈ xs, f? x = some (f x)) :
    xs.mapM f? = some (xs.map f) := by
  induction xs with
  | nil => rfl
  | cons x xs ih =>
    rw [List.mapM_cons, h x List.mem_cons_self, ih fun y hy => h y (List.mem_cons_of_mem _ hy)]
    rfl

theorem bind_isSome {β : Type*} {x? : Option α} {f : α → Option β} (hx : x?.isSome) (hf : ∀ x, (f x).isSome) :
    (x?.bind f).isSome := by
  obtain ⟨x, rfl⟩ := Option.isSome_iff_exists.1 hx
  exact hf x

/-- A fallible loop none of whose rounds fails does not fail. -/
theorem foldlM_isSome {step? : σ → α → Option σ} {xs : List α} (h : ∀ s, ∀ x ∈ xs, (step? s x).isSome) (s : σ) :
    (xs.foldlM step? s).isSome := by
  induction xs generalizing s with
  | nil => rfl
  | cons x xs ih =>
    obtain ⟨s', hs'⟩ := Option.isSome_iff_exists.1 (h s x List.mem_cons_self)
    rw [List.foldlM_cons, hs']
    exact ih (fun s y hy => h s y (List.mem_cons_of_mem _ hy)) s'

/-- A fallible loop with a round that fails in every state fails. -/
theorem foldlM_eq_none {step? : σ → α → Option σ} {xs : List α} {x : α} (hx : x ∈ xs) (h : ∀ s, step? s x = none)
    (s : σ) : xs.foldlM step? s = none := by
  induction xs generalizing s with
  | nil => exact absurd hx List.not_mem_nil
  | cons y xs ih =>
    rw [List.foldlM_cons]
    rcases List.mem_cons.1 hx with rfl | hx
    · rw [h]
      rfl
    · cases step? s y with
      | none => rfl
      | some s' => exact ih hx s'

end Runs

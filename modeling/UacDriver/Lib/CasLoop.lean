import Mathlib.Logic.Function.Basic
import UacDriver.Lib.Runs

/-!
# Compare-and-swap loops

Any number of threads work on one cell. A call of a loop loads the cell and decides from the value it sees: it stops, or
it tries to swap in another value. A weak compare-and-swap fails when the cell has changed and may also fail for no
reason; either way the loop goes on from the value it finds. A thread can also update the cell in one step.

`Sys.log` lists the calls and updates in the order in which they take effect, each with the value it acted on. The log is
a history of an object whose calls are single steps, and it has every call of a thread exactly once, in the order in which
the thread makes them (`run_history`). A loop goes round again only because of another thread's entry in it
(`run_retries`).
-/

namespace CasLoop

open Runs

variable {ι α κ υ : Type*}

/-- The calls of the loops, with what a call swaps in for the value seen (nothing where it stops), and the updates. -/
structure Object (α κ υ : Type*) where
  attempt : κ → α → Option α
  update : υ → α → α

/-- The place of a thread: between two calls, before the load, or before the compare-and-swap. -/
inductive Pc (α κ : Type*) where
  | idle
  | load (c : κ)
  | swap (c : κ) (seen : α)

/-- The call a thread is in. -/
def Pc.call : Pc α κ → List κ
  | .idle => []
  | .load c | .swap c _ => [c]

/-- A call or an update that has taken effect; `swapped` is what a call returns, whether it has swapped its value in. -/
structure Entry (ι α κ υ : Type*) where
  thread : ι
  op : κ ⊕ υ
  seen : α
  swapped : Bool

structure Sys (ι α κ υ : Type*) where
  cell : α
  pc : ι → Pc α κ
  log : List (Entry ι α κ υ)

inductive Act (ι κ υ : Type*) where
  | invoke (i : ι) (c : κ)
  | load (i : ι)
  | swap (i : ι) (spurious : Bool)
  | update (i : ι) (u : υ)

def start (a : α) : Sys ι α κ υ := { cell := a, pc := fun _ => .idle, log := [] }

/-- The thread of the action is at the place the action is for. -/
def Sys.Enabled (s : Sys ι α κ υ) : Act ι κ υ → Prop
  | .invoke i _ | .update i _ => s.pc i = .idle
  | .load i => ∃ c, s.pc i = .load c
  | .swap i _ => ∃ c seen, s.pc i = .swap c seen

namespace Object

variable (o : Object α κ υ)

/-! ### Histories -/

/-- A call or an update as a single step. -/
def apply (a : α) : κ ⊕ υ → α
  | .inl c => (o.attempt c a).getD a
  | .inr u => o.update u a

/-- The log is a history of single steps that begins at `a` and ends at `b`. -/
def Legal : α → List (Entry ι α κ υ) → α → Prop
  | a, [], b => a = b
  | a, e :: es, b => e.seen = a ∧ Legal (o.apply a e.op) es b

variable {o}

theorem Legal.append {a b c : α} {es fs : List (Entry ι α κ υ)} (h : o.Legal a es b) (h' : o.Legal b fs c) :
    o.Legal a (es ++ fs) c := by
  induction es generalizing a with
  | nil =>
    obtain rfl := h
    exact h'
  | cons e es ih => exact ⟨h.1, ih h.2⟩

/-- A history ends where its operations lead, one after the other. -/
theorem Legal.eq_foldl {a b : α} {es : List (Entry ι α κ υ)} (h : o.Legal a es b) :
    b = (es.map (·.op)).foldl o.apply a := by
  induction es generalizing a with
  | nil => exact Eq.symm h
  | cons e es ih => exact ih h.2

/-- What every operation of a history does to what the operations before it have led to. -/
theorem Legal.at_append {a b : α} {pre post : List (Entry ι α κ υ)} {e : Entry ι α κ υ}
    (h : o.Legal a (pre ++ e :: post) b) : o.Legal a pre e.seen ∧ o.Legal (o.apply e.seen e.op) post b := by
  induction pre generalizing a with
  | nil => exact ⟨Eq.symm h.1, by rw [h.1]; exact h.2⟩
  | cons x pre ih => exact ⟨⟨h.1, (ih h.2).1⟩, (ih h.2).2⟩

variable (o)

/-- The entries of a log by other threads than `i`. -/
def others [DecidableEq ι] (i : ι) (log : List (Entry ι α κ υ)) : Nat := log.countP fun e => e.thread ≠ i

/-! ### The steps -/

/-- The calls of thread `i` in a log. -/
def callsOf [DecidableEq ι] (i : ι) (log : List (Entry ι α κ υ)) : List κ :=
  log.filterMap fun e => if e.thread = i then e.op.getLeft? else none

section Looks

variable [DecidableEq ι]

/-- The thread acts on the value in the cell: the call or update takes effect. -/
def settle (s : Sys ι α κ υ) (i : ι) (op : κ ⊕ υ) (swapped : Bool) : Sys ι α κ υ :=
  { cell := o.apply s.cell op, pc := Function.update s.pc i .idle, log := s.log ++ [⟨i, op, s.cell, swapped⟩] }

/-- The thread has found the value in the cell: a call that stops there is over. -/
def look (s : Sys ι α κ υ) (i : ι) (c : κ) : Sys ι α κ υ :=
  match o.attempt c s.cell with
  | none => o.settle s i (.inl c) false
  | some _ => { s with pc := Function.update s.pc i (.swap c s.cell) }

theorem look_rule {s : Sys ι α κ υ} {P : Sys ι α κ υ → Prop} {i : ι} {c : κ}
    (stops : o.attempt c s.cell = none → P (o.settle s i (.inl c) false))
    (goes : (o.attempt c s.cell).isSome → P { s with pc := Function.update s.pc i (.swap c s.cell) }) :
    P (o.look s i c) := by
  unfold look
  cases hc : o.attempt c s.cell with
  | none => exact stops hc
  | some b => exact goes (hc ▸ rfl)

theorem callsOf_settle (s : Sys ι α κ υ) (i j : ι) (op : κ ⊕ υ) (swapped : Bool) :
    callsOf j (o.settle s i op swapped).log = callsOf j s.log ++ if i = j then op.getLeft?.toList else [] := by
  rw [settle, callsOf, List.filterMap_append, ← callsOf]
  congr 1
  by_cases hij : i = j
  · simp only [List.filterMap_cons, hij, if_true, List.filterMap_nil]
    cases op <;> rfl
  · simp only [List.filterMap_cons, hij, if_false, List.filterMap_nil]

/-- What a thread has done and the call it is in: settling a call moves it from the second to the first. -/
theorem settle_calls {s : Sys ι α κ υ} {i : ι} {op : κ ⊕ υ} (hop : (s.pc i).call = op.getLeft?.toList) (swapped : Bool)
    (j : ι) :
    callsOf j (o.settle s i op swapped).log ++ ((o.settle s i op swapped).pc j).call =
      callsOf j s.log ++ (s.pc j).call := by
  rw [callsOf_settle, List.append_assoc]
  congr 1
  by_cases hij : i = j
  · subst hij
    have hidle : (o.settle s i op swapped).pc i = .idle := Function.update_self ..
    rw [if_pos rfl, hop, hidle]
    exact List.append_nil _
  · have hsame : (o.settle s i op swapped).pc j = s.pc j := Function.update_of_ne (Ne.symm hij) ..
    rw [if_neg hij, hsame]
    rfl

theorem look_calls {s : Sys ι α κ υ} {i : ι} {c : κ} (hc : (s.pc i).call = [c]) (j : ι) :
    callsOf j (o.look s i c).log ++ ((o.look s i c).pc j).call = callsOf j s.log ++ (s.pc j).call := by
  refine o.look_rule (P := fun s' : Sys ι α κ υ => callsOf j s'.log ++ (s'.pc j).call = callsOf j s.log ++ (s.pc j).call)
    (fun _ => o.settle_calls hc _ j) fun _ => ?_
  congr 1
  by_cases hij : j = i
  · subst hij
    have hswap : (Function.update s.pc j (.swap c s.cell) j).call = [c] := by
      rw [Function.update_self]
      rfl
    exact hswap.trans hc.symm
  · exact congrArg Pc.call (Function.update_of_ne hij (Pc.swap c s.cell) s.pc)

end Looks

variable [DecidableEq ι] [DecidableEq α]

def step (s : Sys ι α κ υ) : Act ι κ υ → Sys ι α κ υ
  | .invoke i c => match s.pc i with
    | .idle => { s with pc := Function.update s.pc i (.load c) }
    | _ => s
  | .load i => match s.pc i with
    | .load c => o.look s i c
    | _ => s
  | .swap i spurious => match s.pc i with
    | .swap c seen => if s.cell = seen ∧ !spurious then o.settle s i (.inl c) true else o.look s i c
    | _ => s
  | .update i u => match s.pc i with
    | .idle => o.settle s i (.inr u) true
    | _ => s

/-- The thread has seen a value that is no longer in the cell. -/
def stale (i : ι) (s : Sys ι α κ υ) : Nat := match s.pc i with
  | .swap _ seen => if s.cell = seen then 0 else 1
  | _ => 0

/-- The rounds that thread `i` goes again because the cell has changed. -/
def retries (i : ι) (s : Sys ι α κ υ) : Act ι κ υ → List Unit
  | .swap j _ => if j = i then List.replicate (stale i s) () else []
  | _ => []

/-- The calls thread `i` begins. -/
def invoked (i : ι) (s : Sys ι α κ υ) : Act ι κ υ → List κ
  | .invoke j c => match s.pc j with
    | .idle => if j = i then [c] else []
    | _ => []
  | _ => []

/-- What one step does: nothing, an invocation, a look at the cell, or an effect. -/
theorem step_rule {s : Sys ι α κ υ} {P : Act ι κ υ → Sys ι α κ υ → Prop}
    (skip : ∀ a, ¬s.Enabled a → P a s)
    (invoke : ∀ i c, s.pc i = .idle → P (.invoke i c) { s with pc := Function.update s.pc i (.load c) })
    (load : ∀ i c, s.pc i = .load c → P (.load i) (o.look s i c))
    (swapped : ∀ i c, s.pc i = .swap c s.cell → P (.swap i false) (o.settle s i (.inl c) true))
    (retry : ∀ i spurious c seen, s.pc i = .swap c seen → spurious = true ∨ s.cell ≠ seen →
      P (.swap i spurious) (o.look s i c))
    (update : ∀ i u, s.pc i = .idle → P (.update i u) (o.settle s i (.inr u) true)) (a : Act ι κ υ) : P a (o.step s a) := by
  cases a with
  | invoke i c =>
    cases hpc : s.pc i with
    | idle =>
      have he : o.step s (.invoke i c) = { s with pc := Function.update s.pc i (.load c) } := by simp only [step, hpc]
      exact he ▸ invoke i c hpc
    | _ =>
      have he : o.step s (.invoke i c) = s := by simp only [step, hpc]
      exact he.symm ▸ skip _ fun henabled => by cases hpc.symm.trans henabled
  | load i =>
    cases hpc : s.pc i with
    | load c =>
      have he : o.step s (.load i) = o.look s i c := by simp only [step, hpc]
      exact he ▸ load i c hpc
    | _ =>
      have he : o.step s (.load i) = s := by simp only [step, hpc]
      exact he.symm ▸ skip _ fun ⟨_, henabled⟩ => by cases hpc.symm.trans henabled
  | swap i spurious =>
    cases hpc : s.pc i with
    | swap c seen =>
      have he : o.step s (.swap i spurious) =
          if s.cell = seen ∧ !spurious then o.settle s i (.inl c) true else o.look s i c := by simp only [step, hpc]
      rw [he]
      by_cases hswap : s.cell = seen ∧ (!spurious) = true
      · rw [if_pos hswap]
        obtain ⟨rfl, hweak⟩ := hswap
        obtain rfl : spurious = false := by simpa using hweak
        exact swapped i c hpc
      · rw [if_neg hswap]
        refine retry i spurious c seen hpc ?_
        by_cases heq : s.cell = seen
        · exact .inl (by simpa using fun hweak => hswap ⟨heq, hweak⟩)
        · exact .inr heq
    | _ =>
      have he : o.step s (.swap i spurious) = s := by simp only [step, hpc]
      exact he.symm ▸ skip _ fun ⟨_, _, henabled⟩ => by cases hpc.symm.trans henabled
  | update i u =>
    cases hpc : s.pc i with
    | idle =>
      have he : o.step s (.update i u) = o.settle s i (.inr u) true := by simp only [step, hpc]
      exact he ▸ update i u hpc
    | _ =>
      have he : o.step s (.update i u) = s := by simp only [step, hpc]
      exact he.symm ▸ skip _ fun henabled => by cases hpc.symm.trans henabled

/-! ### Whole runs -/

theorem step_calls (i : ι) (s : Sys ι α κ υ) (a : Act ι κ υ) :
    callsOf i (o.step s a).log ++ ((o.step s a).pc i).call = callsOf i s.log ++ (s.pc i).call ++ invoked i s a := by
  refine o.step_rule (s := s) (P := fun a (s' : Sys ι α κ υ) =>
    callsOf i s'.log ++ (s'.pc i).call = callsOf i s.log ++ (s.pc i).call ++ invoked i s a) ?_ ?_ ?_ ?_ ?_ ?_ a
  · intro a hdisabled
    have hnone : invoked i s a = [] := by
      cases a with
      | invoke j c =>
        cases hpc : s.pc j with
        | idle => exact absurd hpc hdisabled
        | _ => simp only [invoked, hpc]
      | _ => rfl
    rw [hnone, List.append_nil]
  · intro j c hpc
    rw [List.append_assoc]
    congr 1
    have hinvoked : invoked i s (.invoke j c) = if j = i then [c] else [] := by simp only [invoked, hpc]
    rw [hinvoked]
    by_cases hji : j = i
    · subst hji
      rw [if_pos rfl, hpc]
      exact congrArg Pc.call (Function.update_self j (Pc.load c) s.pc)
    · rw [if_neg hji, List.append_nil]
      exact congrArg Pc.call (Function.update_of_ne (Ne.symm hji) (Pc.load c) s.pc)
  · intro j c hpc
    exact (o.look_calls (congrArg Pc.call hpc) i).trans (List.append_nil _).symm
  · intro j c hpc
    exact (o.settle_calls (congrArg Pc.call hpc) _ i).trans (List.append_nil _).symm
  · intro j spurious c seen hpc _
    exact (o.look_calls (congrArg Pc.call hpc) i).trans (List.append_nil _).symm
  · intro j u hpc
    exact (o.settle_calls (congrArg Pc.call hpc) _ i).trans (List.append_nil _).symm

theorem run_calls (i : ι) (s : Sys ι α κ υ) (as : List (Act ι κ υ)) :
    callsOf i (run o.step s as).log ++ ((run o.step s as).pc i).call =
      callsOf i s.log ++ (s.pc i).call ++ log o.step (invoked i) s as := by
  induction as generalizing s with
  | nil => exact (List.append_nil _).symm
  | cons a as ih => rw [run_cons, ih, Runs.log, step_calls, List.append_assoc]

theorem run_log (s : Sys ι α κ υ) (as : List (Act ι κ υ)) :
    ∃ taken, (run o.step s as).log = s.log ++ taken ∧ o.Legal s.cell taken (run o.step s as).cell ∧
      ∀ e ∈ taken, ∀ u, e.op = .inr u → .update e.thread u ∈ as := by
  induction as generalizing s with
  | nil => exact ⟨[], (List.append_nil _).symm, rfl, fun _ h => absurd h List.not_mem_nil⟩
  | cons a as ih =>
    obtain ⟨taken, hlog, hlegal, hupdates⟩ := ih (o.step s a)
    have hfirst : ∃ es, (o.step s a).log = s.log ++ es ∧ o.Legal s.cell es (o.step s a).cell ∧
        ∀ e ∈ es, ∀ u, e.op = .inr u → .update e.thread u = a := by
      have hsettle (i : ι) (op : κ ⊕ υ) (swapped : Bool) (a : Act ι κ υ) (hop : ∀ u, op = .inr u → .update i u = a) :
          ∃ es, (o.settle s i op swapped).log = s.log ++ es ∧ o.Legal s.cell es (o.settle s i op swapped).cell ∧
            ∀ e ∈ es, ∀ u, e.op = .inr u → .update e.thread u = a := by
        refine ⟨[⟨i, op, s.cell, swapped⟩], rfl, ⟨rfl, rfl⟩, ?_⟩
        intro e he
        obtain rfl := List.mem_singleton.1 he
        exact hop
      have hnone (s' : Sys ι α κ υ) (hcell : s'.cell = s.cell) (hlog : s'.log = s.log) (a : Act ι κ υ) :
          ∃ es, s'.log = s.log ++ es ∧ o.Legal s.cell es s'.cell ∧
            ∀ e ∈ es, ∀ u, e.op = .inr u → .update e.thread u = a :=
        ⟨[], hlog.trans (List.append_nil _).symm, hcell.symm, fun _ h => absurd h List.not_mem_nil⟩
      have hlook (i : ι) (c : κ) (a : Act ι κ υ) :
          ∃ es, (o.look s i c).log = s.log ++ es ∧ o.Legal s.cell es (o.look s i c).cell ∧
            ∀ e ∈ es, ∀ u, e.op = .inr u → .update e.thread u = a :=
        o.look_rule (P := fun s' => ∃ es, s'.log = s.log ++ es ∧ o.Legal s.cell es s'.cell ∧
          ∀ e ∈ es, ∀ u, e.op = .inr u → .update e.thread u = a)
          (fun _ => hsettle i _ _ a fun _ h => by cases h) fun _ => hnone _ rfl rfl a
      exact o.step_rule (s := s) (P := fun a s' => ∃ es, s'.log = s.log ++ es ∧ o.Legal s.cell es s'.cell ∧
        ∀ e ∈ es, ∀ u, e.op = .inr u → .update e.thread u = a) (fun a _ => hnone _ rfl rfl a)
        (fun i c _ => hnone _ rfl rfl _) (fun i c _ => hlook i c _) (fun i c _ => hsettle i _ _ _ fun _ h => by cases h)
        (fun i _ c _ _ _ => hlook i c _) (fun i u _ => hsettle i _ _ _ fun _ h => by cases h; rfl) a
    obtain ⟨es, hlog', hlegal', hupdates'⟩ := hfirst
    refine ⟨es ++ taken, by rw [run_cons, hlog, hlog', List.append_assoc], hlegal'.append hlegal, fun e he u hu => ?_⟩
    rcases List.mem_append.1 he with he | he
    · exact hupdates' e he u hu ▸ List.mem_cons_self
    · exact List.mem_cons_of_mem _ (hupdates e he u hu)

/-- What a run from `s` adds to the log. -/
structure History (s : Sys ι α κ υ) (as : List (Act ι κ υ)) (taken : List (Entry ι α κ υ)) : Prop where
  log : (run o.step s as).log = s.log ++ taken
  legal : o.Legal s.cell taken (run o.step s as).cell
  updates : ∀ e ∈ taken, ∀ u, e.op = .inr u → .update e.thread u ∈ as
  calls : ∀ i, callsOf i taken ++ ((run o.step s as).pc i).call = (s.pc i).call ++ Runs.log o.step (invoked i) s as

/-- In every interleaving the loops do what single steps would do in the order of the log: every call takes effect
exactly once, in the order in which its thread makes it, and one that has not returned yet has taken no effect. -/
theorem run_history (s : Sys ι α κ υ) (as : List (Act ι κ υ)) : ∃ taken, o.History s as taken := by
  obtain ⟨taken, hlog, hlegal, hupdates⟩ := o.run_log s as
  refine ⟨taken, hlog, hlegal, hupdates, fun i => ?_⟩
  have hcalls := o.run_calls i s as
  have hsplit : callsOf i (run o.step s as).log = callsOf i s.log ++ callsOf i taken := by
    rw [hlog, callsOf, List.filterMap_append, ← callsOf, ← callsOf]
  rw [hsplit, List.append_assoc, List.append_assoc] at hcalls
  exact List.append_cancel_left hcalls

/-! ### What a call returns -/

/-- A thread is before a compare-and-swap only with a value to swap in, and a call returns whether it had one. -/
structure Answers (s : Sys ι α κ υ) : Prop where
  pending : ∀ i c seen, s.pc i = .swap c seen → (o.attempt c seen).isSome
  returned : ∀ e ∈ s.log, ∀ c, e.op = .inl c → e.swapped = (o.attempt c e.seen).isSome

namespace Answers

variable {o} {s : Sys ι α κ υ}

omit [DecidableEq α] in
theorem move (h : o.Answers s) (i : ι) {pc : Pc α κ} (hpc : ∀ c seen, pc = .swap c seen → (o.attempt c seen).isSome) :
    o.Answers { s with pc := Function.update s.pc i pc } := by
  refine ⟨fun j c seen hj => ?_, h.returned⟩
  by_cases hji : j = i
  · subst hji
    exact hpc c seen ((Function.update_self j pc s.pc).symm.trans hj)
  · exact h.pending j c seen ((Function.update_of_ne hji pc s.pc).symm.trans hj)

omit [DecidableEq α] in
theorem settle (h : o.Answers s) (i : ι) {op : κ ⊕ υ} {swapped : Bool}
    (hop : ∀ c, op = .inl c → swapped = (o.attempt c s.cell).isSome) : o.Answers (o.settle s i op swapped) := by
  refine ⟨(h.move i fun _ _ h => by cases h).pending, fun e he => ?_⟩
  rcases List.mem_append.1 he with he | he
  · exact h.returned e he
  · obtain rfl := List.mem_singleton.1 he
    exact hop

omit [DecidableEq α] in
theorem look (h : o.Answers s) (i : ι) (c : κ) : o.Answers (o.look s i c) := by
  refine o.look_rule (fun hstops => ?_) fun hgoes => ?_
  · exact h.settle i fun _ heq => by cases heq; rw [hstops]; rfl
  · exact h.move i fun _ _ heq => by cases heq; exact hgoes

theorem step (h : o.Answers s) (a : Act ι κ υ) : o.Answers (o.step s a) := by
  refine o.step_rule (s := s) (P := fun _ s' => o.Answers s') (fun _ _ => h) ?_ ?_ ?_ ?_ ?_ a
  · exact fun i c _ => h.move i fun _ _ heq => by cases heq
  · exact fun i c _ => h.look i c
  · exact fun i c hpc => h.settle i fun _ heq => by cases heq; exact (h.pending i c s.cell hpc).symm
  · exact fun i _ c _ _ _ => h.look i c
  · exact fun i u _ => h.settle i fun _ heq => by cases heq

theorem run (h : o.Answers s) (as : List (Act ι κ υ)) : o.Answers (run o.step s as) :=
  run_invariant (fun _ a h => h.step a) h as

end Answers

omit [DecidableEq ι] [DecidableEq α] in
theorem answers_start (a : α) : o.Answers (start a : Sys ι α κ υ) :=
  ⟨fun _ _ _ h => (by cases h), fun _ h => absurd h List.not_mem_nil⟩

/-! ### The rounds of a loop -/

section Rounds

variable (i : ι) (s : Sys ι α κ υ)

omit [DecidableEq ι] in
theorem stale_le : stale i s ≤ 1 := by
  unfold stale
  split
  · split <;> decide
  · exact Nat.zero_le 1

theorem stale_update {i j : ι} (hji : j ≠ i) (pc : Pc α κ) :
    stale i { s with pc := Function.update s.pc j pc } = stale i s := by
  simp only [stale, Function.update_of_ne (Ne.symm hji)]

/-- Only an effect of another thread can make what a thread has seen stale. -/
theorem stale_settle (j : ι) (op : κ ⊕ υ) (swapped : Bool) :
    stale i (o.settle s j op swapped) + others i s.log ≤ others i (o.settle s j op swapped).log := by
  have hlog : others i (o.settle s j op swapped).log = others i s.log + if j = i then 0 else 1 := by
    rw [settle, others, List.countP_append, ← others]
    by_cases hji : j = i <;> simp [hji]
  rw [hlog]
  by_cases hji : j = i
  · subst hji
    have hidle : stale j (o.settle s j op swapped) = 0 := by simp only [stale, settle, Function.update_self]
    rw [hidle, if_pos rfl, Nat.zero_add]
    exact Nat.le_refl _
  · have hle := stale_le i (o.settle s j op swapped)
    rw [if_neg hji]
    omega

/-- A thread that looks has seen what is in the cell. -/
theorem stale_look (j : ι) (c : κ) :
    stale i (o.look s j c) + others i s.log ≤ others i (o.look s j c).log + if j = i then 0 else stale i s := by
  refine o.look_rule (P := fun s' : Sys ι α κ υ =>
    stale i s' + others i s.log ≤ others i s'.log + if j = i then 0 else stale i s) (fun _ => ?_) fun _ => ?_
  · exact Nat.le_trans (o.stale_settle i s j _ _) (Nat.le_add_right ..)
  · by_cases hji : j = i
    · subst hji
      simp only [stale, Function.update_self, if_true, Nat.zero_add, Nat.add_zero, Nat.le_refl]
    · rw [if_neg hji, Nat.add_comm]
      exact Nat.add_le_add_left (Nat.le_of_eq (stale_update s hji _)) _

theorem step_retries (a : Act ι κ υ) :
    (retries i s a).length + stale i (o.step s a) + others i s.log ≤ others i (o.step s a).log + stale i s := by
  have hlook (j : ι) (c : κ) := o.stale_look i s j c
  have hsettle (j : ι) (op : κ ⊕ υ) (swapped : Bool) := o.stale_settle i s j op swapped
  refine o.step_rule (s := s) (P := fun a (s' : Sys ι α κ υ) =>
    (retries i s a).length + stale i s' + others i s.log ≤ others i s'.log + stale i s) ?_ ?_ ?_ ?_ ?_ ?_ a
  · intro a hdisabled
    have hnone : (retries i s a).length = 0 := by
      cases a with
      | swap j spurious =>
        rw [retries]
        split
        · rename_i hji
          subst hji
          have hfresh : stale j s = 0 := by
            unfold stale
            split
            · rename_i c seen hpc
              exact absurd ⟨c, seen, hpc⟩ hdisabled
            · rfl
          rw [hfresh]
          rfl
        · rfl
      | _ => rfl
    omega
  · intro j c hpc
    have hkeep : stale i { s with pc := Function.update s.pc j (.load c) } ≤ stale i s := by
      by_cases hji : j = i
      · subst hji
        simp only [stale, Function.update_self, Nat.zero_le]
      · exact Nat.le_of_eq (stale_update s hji _)
    show 0 + stale i { s with pc := Function.update s.pc j (.load c) } + others i s.log ≤ others i s.log + stale i s
    omega
  · intro j c hpc
    have hlook := hlook j c
    have hnone : (retries i s (.load j)).length = 0 := rfl
    split at hlook <;> omega
  · intro j c hpc
    have hsettle := hsettle j (.inl c) true
    have hnone : (retries i s (.swap j false)).length = 0 := by
      rw [retries]
      split
      · rename_i hji
        subst hji
        have hfresh : stale j s = 0 := by simp only [stale, hpc, if_true]
        rw [hfresh]
        rfl
      · rfl
    omega
  · intro j spurious c seen hpc _
    have hlook := hlook j c
    have hrounds : (retries i s (.swap j spurious)).length = if j = i then stale i s else 0 := by
      rw [retries]
      split
      · exact List.length_replicate
      · rfl
    rw [hrounds]
    split at hlook
    · rename_i hji
      rw [if_pos hji]
      omega
    · rename_i hji
      rw [if_neg hji]
      omega
  · intro j u hpc
    have hsettle := hsettle j (.inr u) true
    have hnone : (retries i s (.update j u)).length = 0 := rfl
    omega

/-- No loop goes round for ever while the others stand still: a thread goes round again for a changed cell at most once
for every call or update of another thread that has taken effect. -/
theorem run_retries (as : List (Act ι κ υ)) :
    (log o.step (retries i) s as).length + stale i (run o.step s as) + others i s.log ≤
      others i (run o.step s as).log + stale i s := by
  induction as generalizing s with
  | nil =>
    show 0 + stale i s + others i s.log ≤ others i s.log + stale i s
    omega
  | cons a as ih =>
    have hfirst := o.step_retries i s a
    have hrest := ih (o.step s a)
    rw [Runs.log, List.length_append, run_cons]
    omega

end Rounds

end Object

end CasLoop

import UacDriver.MetaFifo
import UacDriver.Lib.Runs

/-!
# Pushing and popping packet layouts concurrently

The event thread pushes in `onCapture` while another thread pops, in the priming loop of `startIsoPump` or
in `prepareImplicitTransfer`. Every shared access is one step: the pusher loads `implicitWrite_`, loads
`implicitRead_`, retries the overflow exchange, stores the slot, stores `implicitWrite_`; the popper loads
both cursors, loads the slots and exchanges `implicitRead_`. A weak exchange may fail spuriously.

What carries the proof is that `implicitRead_` only grows: a slot is overwritten only when the index it
held is below the read cursor, so an exchange that still finds the popper's `read` has seen current slots.
-/

namespace UacDriver

open Runs

/-- Program counter of the pusher, with its locals. -/
inductive PushPc where
  | idle
  | haveWrite (v write : Nat)
  | loop (v write read : Nat)
  /-- The overflow exchange succeeded, `metadataFifoOverruns_` is still to be counted. -/
  | overran (v write : Nat)
  | store (v write : Nat)
  | publish (v write : Nat)

/-- The two popping loops: priming takes one entry, a transfer takes one for each of its packets. -/
inductive PopOp where
  | prime (maxFrames : Nat)
  | prepare (count : Nat)

def PopOp.count : PopOp → Nat
  | .prime _ => 1
  | .prepare count => count

/-- The availability test of the loop: too few entries between the loaded cursors. -/
def PopOp.exhausted : PopOp → Nat → Nat → Bool
  | .prime _, read, write => read == write
  | .prepare count, read, write => write < read || write - read < count

/-- Program counter of the popper, with its locals. -/
inductive PopPc where
  | idle
  | haveRead (op : PopOp) (read : Nat)
  | slots (op : PopOp) (read : Nat) (vals : List Nat)

/-- After a successful exchange priming goes on with its stale `read` when the entry had no frames. -/
def PopOp.afterPop (read : Nat) (vals : List Nat) : PopOp → PopPc
  | .prime maxFrames => if min (vals.headD 0) maxFrames = 0 then .haveRead (.prime maxFrames) read else .idle
  | .prepare _ => .idle

/-- The FIFO, both threads, and what was pushed, popped (value, index) and dropped by a resynchronisation. -/
structure FifoRace where
  fifo : MetaFifo
  push : PushPc := .idle
  pop : PopPc := .idle
  pushed : List Nat := []
  popped : List (Nat × Nat) := []
  resyncs : List (Nat × Nat) := []

inductive RaceAct where
  | beginPush (v : Nat)
  | pusher (spurious : Bool)
  | beginPop (op : PopOp)
  | popper (spurious : Bool)
  /-- `prepareImplicitTransfer` finds too few buffered frames. -/
  | giveUp

namespace FifoRace

def stepPusher (s : FifoRace) (spurious : Bool) : FifoRace :=
  match s.push with
  | .idle => s
  | .haveWrite v write => { s with push := .loop v write s.fifo.implicitRead }
  | .loop v write read =>
    if write - read ≥ kImplicitFifoCapacity then
      if !spurious ∧ s.fifo.implicitRead = read then
        { s with fifo := { s.fifo with implicitRead := write }, push := .overran v write,
                 resyncs := s.resyncs ++ [(read, write)] }
      else { s with push := .loop v write s.fifo.implicitRead }
    else { s with push := .store v write }
  | .overran v write =>
    { s with fifo := { s.fifo with metadataFifoOverruns := s.fifo.metadataFifoOverruns + 1 },
             push := .store v write }
  | .store v write => { s with fifo := s.fifo.setEntry write v, push := .publish v write }
  | .publish v write =>
    { s with fifo := { s.fifo with implicitWrite := write + 1 }, push := .idle, pushed := s.pushed ++ [v] }

def stepPopper (s : FifoRace) (spurious : Bool) : FifoRace :=
  match s.pop with
  | .idle => s
  | .haveRead op read =>
    if op.exhausted read s.fifo.implicitWrite then { s with pop := .idle }
    else { s with pop := .slots op read [] }
  | .slots op read vals =>
    if vals.length < op.count then
      { s with pop := .slots op read (vals ++ [s.fifo.entry (read + vals.length)]) }
    else if !spurious ∧ s.fifo.implicitRead = read then
      { s with fifo := { s.fifo with implicitRead := read + op.count },
               popped := s.popped ++ vals.zipIdx read, pop := op.afterPop read vals }
    else { s with pop := .haveRead op s.fifo.implicitRead }

def step (s : FifoRace) : RaceAct → FifoRace
  | .beginPush v => match s.push with
    | .idle => { s with push := .haveWrite v s.fifo.implicitWrite }
    | _ => s
  | .pusher spurious => s.stepPusher spurious
  | .beginPop op => match s.pop, op with
    | .idle, .prime maxFrames => { s with pop := .haveRead (.prime maxFrames) s.fifo.implicitRead }
    | .idle, .prepare count =>
      if count = 0 ∨ count > kMaxPacketsPerTransfer then s
      else { s with pop := .haveRead (.prepare count) s.fifo.implicitRead }
    | _, _ => s
  | .popper spurious => s.stepPopper spurious
  | .giveUp => match s.pop with
    | .slots (.prepare _) _ _ => { s with pop := .idle }
    | _ => s

/-- `implicitRead_` and `implicitWrite_` reset by a session start; the slots hold whatever they held. -/
def start (slots : Nat → Nat) : FifoRace := { fifo := { implicitFrames := slots } }

/-! ### The invariant -/

/-- What the pusher's locals know of the FIFO. -/
def PushOk (f : MetaFifo) : PushPc → Prop
  | .idle => True
  | .haveWrite _ write => write = f.implicitWrite
  | .loop _ write read => write = f.implicitWrite ∧ read ≤ f.implicitRead
  | .overran _ write => write = f.implicitWrite ∧ write < f.implicitRead + kImplicitFifoCapacity
  | .store _ write => write = f.implicitWrite ∧ write < f.implicitRead + kImplicitFifoCapacity
  | .publish v write =>
    write = f.implicitWrite ∧ write < f.implicitRead + kImplicitFifoCapacity ∧ f.entry write = v

/-- What the popper's locals know: its `read` is never ahead of the cursor, and as long as the cursor has
not left it the slots loaded so far are the pushed values. -/
def PopOk (f : MetaFifo) (pushed : List Nat) : PopPc → Prop
  | .idle => True
  | .haveRead _ read => read ≤ f.implicitRead
  | .slots op read vals => read ≤ f.implicitRead ∧ read + op.count ≤ f.implicitWrite ∧ vals.length ≤ op.count ∧
      (read = f.implicitRead → ∀ j v, vals[j]? = some v → pushed[read + j]? = some v)

def uncounted : PushPc → Nat
  | .overran _ _ => 1
  | _ => 0

structure Inv (s : FifoRace) : Prop where
  holds : s.fifo.Holds s.pushed
  push : PushOk s.fifo s.push
  pop : PopOk s.fifo s.pushed s.pop
  popped_lt : ∀ e ∈ s.popped, e.2 < s.fifo.implicitRead
  popped_sorted : s.popped.Pairwise fun a b => a.2 < b.2
  popped_val : ∀ e ∈ s.popped, s.pushed[e.2]? = some e.1
  covered : ∀ i < s.fifo.implicitRead,
    (∃ e ∈ s.popped, e.2 = i) ∨ ∃ r ∈ s.resyncs, r.1 ≤ i ∧ i < r.2
  counted : s.resyncs.length = s.fifo.metadataFifoOverruns + uncounted s.push

theorem PopOk.mono {f f' : MetaFifo} {pushed pushed' : List Nat} {pc : PopPc} (h : PopOk f pushed pc)
    (hr : f.implicitRead ≤ f'.implicitRead) (hw : f.implicitWrite ≤ f'.implicitWrite)
    (hp : ∀ i v : Nat, pushed[i]? = some v → pushed'[i]? = some v) : PopOk f' pushed' pc := by
  cases pc with
  | idle => trivial
  | haveRead op read => exact Nat.le_trans h hr
  | slots op read vals =>
    obtain ⟨h₁, h₂, h₃, h₄⟩ := h
    refine ⟨by omega, by omega, h₃, fun he j v hv => hp _ _ (h₄ (by omega) j v hv)⟩

theorem getElem?_append_of_some {l : List Nat} {i v : Nat} (h : l[i]? = some v) (x : Nat) :
    (l ++ [x])[i]? = some v := by
  rw [List.getElem?_append_left (List.getElem?_eq_some_iff.1 h).1]; exact h

/-! ### The steps -/

variable {s : FifoRace}

theorem Inv.pusher (h : s.Inv) (spurious : Bool) : (s.stepPusher spurious).Inv := by
  have hle := h.holds.read_le
  have hroom := h.holds.room
  have hpush := h.push
  have hcnt := h.counted
  unfold stepPusher
  split <;> rename_i hpc <;> rw [hpc] at hpush hcnt
  · exact h
  · exact ⟨h.holds, ⟨hpush, le_rfl⟩, h.pop, h.popped_lt, h.popped_sorted, h.popped_val, h.covered, hcnt⟩
  · rename_i v write read
    obtain ⟨rfl, hread⟩ := hpush
    split
    · split
      · -- the exchange drops everything between the cursors
        rename_i hcas
        obtain ⟨-, rfl⟩ := hcas
        refine ⟨⟨h.holds.write_eq, le_rfl, Nat.le_add_right _ _, fun i h₁ h₂ => absurd h₂ (Nat.not_lt.2 h₁)⟩,
          ⟨rfl, by simp [kImplicitFifoCapacity]⟩, h.pop.mono hle le_rfl fun _ _ h => h,
          fun e he => Nat.lt_of_lt_of_le (h.popped_lt e he) hle, h.popped_sorted, h.popped_val,
          fun i hi => ?_, ?_⟩
        · rcases Nat.lt_or_ge i s.fifo.implicitRead with hi' | hi'
          · rcases h.covered i hi' with h | ⟨r, hr, h⟩
            · exact .inl h
            · exact .inr ⟨r, by simp [hr], h⟩
          · exact .inr ⟨(s.fifo.implicitRead, s.fifo.implicitWrite), by simp, hi', hi⟩
        · simpa [uncounted] using hcnt
      · exact ⟨h.holds, ⟨rfl, le_rfl⟩, h.pop, h.popped_lt, h.popped_sorted, h.popped_val, h.covered, hcnt⟩
    · have hw : s.fifo.implicitWrite < s.fifo.implicitRead + kImplicitFifoCapacity := by omega
      exact ⟨h.holds, ⟨rfl, hw⟩, h.pop, h.popped_lt, h.popped_sorted, h.popped_val, h.covered, hcnt⟩
  · exact ⟨⟨h.holds.write_eq, hle, hroom, h.holds.entries⟩, hpush, h.pop.mono le_rfl le_rfl fun _ _ h => h,
      h.popped_lt, h.popped_sorted, h.popped_val, h.covered, by simpa [uncounted] using hcnt⟩
  · -- the slot of `write` is the slot of no index between the cursors
    rename_i v write
    obtain ⟨rfl, hw⟩ := hpush
    refine ⟨⟨h.holds.write_eq, hle, hroom, fun i h₁ h₂ => ?_⟩, ⟨rfl, hw, by simp⟩,
      h.pop.mono le_rfl le_rfl fun _ _ h => h, h.popped_lt, h.popped_sorted, h.popped_val, h.covered, hcnt⟩
    simp only [MetaFifo.setEntry_read, MetaFifo.setEntry_write] at h₁ h₂
    rw [MetaFifo.setEntry_entry_of_lt h₂ (by omega)]
    exact h.holds.entries i h₁ h₂
  · rename_i v write
    obtain ⟨rfl, hw, rfl⟩ := hpush
    refine ⟨⟨by simp [h.holds.write_eq], Nat.le_succ_of_le hle, hw, fun i h₁ h₂ => ?_⟩, trivial,
      h.pop.mono le_rfl (Nat.le_succ _) fun i v hv => getElem?_append_of_some hv _, h.popped_lt,
      h.popped_sorted, fun e he => getElem?_append_of_some (h.popped_val e he) _, h.covered, hcnt⟩
    rcases Nat.lt_or_ge i s.fifo.implicitWrite with hi | hi
    · exact getElem?_append_of_some (h.holds.entries i h₁ hi) _
    · obtain rfl : i = s.fifo.implicitWrite := Nat.le_antisymm (Nat.lt_succ_iff.1 h₂) hi
      show (s.pushed ++ [s.fifo.entry s.fifo.implicitWrite])[s.fifo.implicitWrite]? =
        some (s.fifo.entry s.fifo.implicitWrite)
      rw [List.getElem?_append_right (le_of_eq h.holds.write_eq.symm), h.holds.write_eq]
      simp

theorem Inv.popped (h : s.Inv) {op : PopOp} {vals : List Nat}
    (hpc : s.pop = .slots op s.fifo.implicitRead vals) (hlen : ¬ vals.length < op.count) :
    Inv { s with fifo := { s.fifo with implicitRead := s.fifo.implicitRead + op.count },
                 popped := s.popped ++ vals.zipIdx s.fifo.implicitRead,
                 pop := op.afterPop s.fifo.implicitRead vals } := by
  obtain ⟨-, hfit, hle, hcur⟩ : PopOk s.fifo s.pushed (.slots op s.fifo.implicitRead vals) := by
    rw [← hpc]; exact h.pop
  have hlen' : vals.length = op.count := by omega
  have hmem : ∀ e ∈ vals.zipIdx s.fifo.implicitRead, s.fifo.implicitRead ≤ e.2 ∧
      e.2 < s.fifo.implicitRead + op.count ∧ s.pushed[e.2]? = some e.1 := by
    intro e he
    obtain ⟨h₁, h₂, h₃⟩ := List.mem_zipIdx he
    refine ⟨h₁, by omega, ?_⟩
    have := hcur rfl (e.2 - s.fifo.implicitRead) e.1 (by rw [h₃]; simp)
    rwa [Nat.add_sub_cancel' h₁] at this
  have hroom : s.fifo.implicitWrite ≤ s.fifo.implicitRead + op.count + kImplicitFifoCapacity := by
    have := h.holds.room; omega
  have hgrow : ∀ n, n < s.fifo.implicitRead + kImplicitFifoCapacity →
      n < s.fifo.implicitRead + op.count + kImplicitFifoCapacity := fun n hn => by omega
  refine ⟨⟨h.holds.write_eq, hfit, hroom,
      fun i h₁ h₂ => h.holds.entries i (le_trans (Nat.le_add_right _ _) h₁) h₂⟩, ?_, ?_, ?_, ?_, ?_, ?_, h.counted⟩
  · have hpush := h.push
    show PushOk { s.fifo with implicitRead := s.fifo.implicitRead + op.count } s.push
    cases hp : s.push with
    | idle => trivial
    | haveWrite => rw [hp] at hpush; exact hpush
    | loop => rw [hp] at hpush; exact ⟨hpush.1, le_trans hpush.2 (Nat.le_add_right _ _)⟩
    | overran => rw [hp] at hpush; exact ⟨hpush.1, hgrow _ hpush.2⟩
    | store => rw [hp] at hpush; exact ⟨hpush.1, hgrow _ hpush.2⟩
    | publish => rw [hp] at hpush; exact ⟨hpush.1, hgrow _ hpush.2.1, hpush.2.2⟩
  · cases op with
    | prime maxFrames =>
      simp only [PopOp.afterPop]
      split
      · exact Nat.le_add_right _ _
      · trivial
    | prepare count => trivial
  · intro e he
    rcases List.mem_append.1 he with he | he
    · exact Nat.lt_of_lt_of_le (h.popped_lt e he) (Nat.le_add_right _ _)
    · exact (hmem e he).2.1
  · refine List.pairwise_append.2 ⟨h.popped_sorted, ?_,
      fun a ha b hb => Nat.lt_of_lt_of_le (h.popped_lt a ha) (hmem b hb).1⟩
    refine List.pairwise_iff_getElem.2 fun i j hi hj hij => ?_
    simp only [List.getElem_zipIdx]; omega
  · intro e he
    rcases List.mem_append.1 he with he | he
    · exact h.popped_val e he
    · exact (hmem e he).2.2
  · intro i hi
    have hi : i < s.fifo.implicitRead + op.count := hi
    rcases Nat.lt_or_ge i s.fifo.implicitRead with hi' | hi'
    · rcases h.covered i hi' with ⟨e, he, rfl⟩ | h
      · exact .inl ⟨e, List.mem_append_left _ he, rfl⟩
      · exact .inr h
    · have hk : i - s.fifo.implicitRead < (vals.zipIdx s.fifo.implicitRead).length := by simp; omega
      refine .inl ⟨(vals.zipIdx s.fifo.implicitRead).get ⟨i - s.fifo.implicitRead, hk⟩, ?_, ?_⟩
      · exact List.mem_append_right _ (List.get_mem _ _)
      · simp only [List.get_eq_getElem, List.getElem_zipIdx]; omega

theorem Inv.popper (h : s.Inv) (spurious : Bool) : (s.stepPopper spurious).Inv := by
  unfold stepPopper
  split <;> rename_i hpc
  · exact h
  · rename_i op read
    have hread : read ≤ s.fifo.implicitRead := by have := h.pop; rwa [hpc] at this
    split
    · exact ⟨h.holds, h.push, trivial, h.popped_lt, h.popped_sorted, h.popped_val, h.covered, h.counted⟩
    · rename_i hex
      refine ⟨h.holds, h.push, ⟨hread, ?_, Nat.zero_le _, fun _ j v hv => by simp at hv⟩, h.popped_lt,
        h.popped_sorted, h.popped_val, h.covered, h.counted⟩
      have := h.holds.read_le
      cases op <;> simp [PopOp.exhausted, PopOp.count] at hex ⊢ <;> omega
  · rename_i op read vals
    obtain ⟨h₁, h₂, h₃, h₄⟩ : PopOk s.fifo s.pushed (.slots op read vals) := by rw [← hpc]; exact h.pop
    split
    · -- one more slot is loaded
      rename_i hlen
      have hlen' : (vals ++ [s.fifo.entry (read + vals.length)]).length ≤ op.count := by
        simp only [List.length_append, List.length_singleton]; omega
      refine ⟨h.holds, h.push, ⟨h₁, h₂, hlen', fun he j v hv => ?_⟩, h.popped_lt, h.popped_sorted,
        h.popped_val, h.covered, h.counted⟩
      rcases Nat.lt_or_ge j vals.length with hj | hj
      · rw [List.getElem?_append_left hj] at hv; exact h₄ he j v hv
      · have hj' := (List.getElem?_eq_some_iff.1 hv).1
        simp at hj'
        obtain rfl : j = vals.length := by omega
        simp at hv
        rw [← hv]
        have he : read = s.fifo.implicitRead := he
        exact h.holds.entries _ (by omega) (by omega)
    · rename_i hlen
      split
      · rename_i hcas
        obtain ⟨-, rfl⟩ := hcas
        exact h.popped hpc hlen
      · exact ⟨h.holds, h.push, le_rfl, h.popped_lt, h.popped_sorted, h.popped_val, h.covered, h.counted⟩

theorem Inv.step (h : s.Inv) (a : RaceAct) : (s.step a).Inv := by
  cases a with
  | beginPush v =>
    simp only [FifoRace.step]
    split
    · rename_i hpc
      exact ⟨h.holds, rfl, h.pop, h.popped_lt, h.popped_sorted, h.popped_val, h.covered, by
        have := h.counted; rwa [hpc] at this⟩
    · exact h
  | pusher spurious => exact h.pusher spurious
  | beginPop op =>
    simp only [FifoRace.step]
    split
    · exact ⟨h.holds, h.push, le_rfl, h.popped_lt, h.popped_sorted, h.popped_val, h.covered, h.counted⟩
    · split
      · exact h
      · exact ⟨h.holds, h.push, le_rfl, h.popped_lt, h.popped_sorted, h.popped_val, h.covered, h.counted⟩
    · exact h
  | popper spurious => exact h.popper spurious
  | giveUp =>
    simp only [FifoRace.step]
    split
    · exact ⟨h.holds, h.push, trivial, h.popped_lt, h.popped_sorted, h.popped_val, h.covered, h.counted⟩
    · exact h

theorem Inv.start (slots : Nat → Nat) : (start slots).Inv :=
  ⟨⟨rfl, le_rfl, Nat.zero_le _, fun _ _ h => absurd h (Nat.not_lt_zero _)⟩, trivial, trivial,
    by simp [FifoRace.start], by simp [FifoRace.start], by simp [FifoRace.start],
    fun _ h => absurd h (Nat.not_lt_zero _), rfl⟩

theorem Inv.read_mono (h : s.Inv) (a : RaceAct) : s.fifo.implicitRead ≤ (s.step a).fifo.implicitRead := by
  cases a with
  | beginPush v => simp only [FifoRace.step]; split <;> exact le_rfl
  | pusher spurious =>
    have hpush := h.push
    have hle := h.holds.read_le
    simp only [FifoRace.step, stepPusher]
    split <;> rename_i hpc <;> try exact le_rfl
    rw [hpc] at hpush
    obtain ⟨rfl, -⟩ := hpush
    split
    · split
      · exact hle
      · exact le_rfl
    · exact le_rfl
  | beginPop op => simp only [FifoRace.step]; split <;> try split
                   all_goals exact le_rfl
  | popper spurious =>
    simp only [FifoRace.step, stepPopper]
    split
    · exact le_rfl
    · split <;> exact le_rfl
    · split
      · exact le_rfl
      · split
        · rename_i hcas
          rw [hcas.2]; exact Nat.le_add_right _ _
        · exact le_rfl
  | giveUp => simp only [FifoRace.step]; split <;> exact le_rfl

theorem Inv.run_read_mono (h : s.Inv) (as : List RaceAct) :
    s.fifo.implicitRead ≤ (run FifoRace.step s as).fifo.implicitRead := by
  induction as generalizing s with
  | nil => exact le_rfl
  | cons a as ih => exact (h.read_mono a).trans (ih (h.step a))

/-! ### Without interruption -/

/-- A push that nothing interrupts is `MetaFifo.push`; without an overflow the last step is idle. -/
theorem run_push (hidle : s.push = .idle) (v : Nat) :
    run step s (.beginPush v :: List.replicate 5 (.pusher false)) =
      { s with fifo := s.fifo.push v, pushed := s.pushed ++ [v], resyncs := s.resyncs ++ s.fifo.resync } := by
  have hbegin : s.step (.beginPush v) = { s with push := .haveWrite v s.fifo.implicitWrite } := by
    simp only [step, hidle]
  rw [run_cons, hbegin]
  by_cases hfull : s.fifo.implicitWrite - s.fifo.implicitRead ≥ kImplicitFifoCapacity
  · simp only [List.replicate, run_cons, run_nil, step, stepPusher, if_pos hfull, Bool.not_false, true_and, if_true,
      MetaFifo.push, MetaFifo.makeRoom, MetaFifo.resync, hidle]
  · simp only [List.replicate, run_cons, run_nil, step, stepPusher, if_neg hfull, MetaFifo.push,
      MetaFifo.makeRoom, MetaFifo.resync, hidle, List.append_nil]

/-- The slot loads in a row. -/
theorem run_slots {op : PopOp} {read n : Nat} {vals : List Nat} (hpop : s.pop = .slots op read vals)
    (hn : vals.length + n ≤ op.count) :
    run step s (List.replicate n (.popper false)) =
      { s with pop := .slots op read (vals ++ (List.range' (read + vals.length) n).map s.fifo.entry) } := by
  induction n generalizing s vals with
  | zero => simp [← hpop]
  | succ n ih =>
    have hload : s.step (.popper false) =
        { s with pop := .slots op read (vals ++ [s.fifo.entry (read + vals.length)]) } := by
      simp only [step, stepPopper, hpop]
      rw [if_pos (by omega)]
    rw [List.replicate_succ, run_cons, hload, ih rfl (by simp; omega)]
    simp [List.range'_succ, Nat.add_assoc]

/-- A pop of `prepareImplicitTransfer` that nothing interrupts takes the next `count` entries. -/
theorem run_prepare {count : Nat} (hidle : s.pop = .idle) (hpos : 0 < count) (hmax : count ≤ kMaxPacketsPerTransfer)
    (havail : s.fifo.implicitRead + count ≤ s.fifo.implicitWrite) :
    run step s (.beginPop (.prepare count) :: .popper false ::
        (List.replicate count (.popper false) ++ [.popper false])) =
      { s with fifo := s.fifo.take count, popped := s.popped ++
        ((List.range' s.fifo.implicitRead count).map s.fifo.entry).zipIdx s.fifo.implicitRead } := by
  have hbegin : s.step (.beginPop (.prepare count)) =
      { s with pop := .haveRead (.prepare count) s.fifo.implicitRead } := by
    simp only [step, hidle]
    rw [if_neg (by omega)]
  have hread : (s.step (.beginPop (.prepare count))).step (.popper false) =
      { s with pop := .slots (.prepare count) s.fifo.implicitRead [] } := by
    have hex : (PopOp.prepare count).exhausted s.fifo.implicitRead s.fifo.implicitWrite = false := by
      simp [PopOp.exhausted]; omega
    rw [hbegin]
    simp only [step, stepPopper, hex]
    rfl
  rw [run_cons, run_cons, hread, run_append, run_slots rfl (by simp [PopOp.count])]
  simp [step, stepPopper, PopOp.count, PopOp.afterPop, MetaFifo.take, hidle]

end FifoRace

/-- The packet layout FIFO under every interleaving of one pusher and one popper. -/
theorem metadata_fifo_race (slots : Nat → Nat) (as : List RaceAct) :
    let s := run FifoRace.step (FifoRace.start slots) as
    (∀ bs, s.fifo.implicitRead ≤ (run FifoRace.step s bs).fifo.implicitRead) ∧
    s.fifo.implicitRead ≤ s.fifo.implicitWrite ∧
    s.fifo.implicitWrite - s.fifo.implicitRead ≤ kImplicitFifoCapacity ∧
    (∀ v i, (v, i) ∈ s.popped → s.pushed[i]? = some v) ∧
    (s.popped.map Prod.snd).Pairwise (· < ·) ∧
    (∀ i < s.fifo.implicitRead, (∃ v, (v, i) ∈ s.popped) ∨ ∃ r ∈ s.resyncs, r.1 ≤ i ∧ i < r.2) ∧
    s.resyncs.length = s.fifo.metadataFifoOverruns + FifoRace.uncounted s.push := by
  intro s
  have h : s.Inv := run_invariant (fun _ a hs => hs.step a) (.start slots) as
  refine ⟨h.run_read_mono, h.holds.read_le, ?_, fun v i he => h.popped_val _ he, ?_, fun i hi => ?_, h.counted⟩
  · have := h.holds.room; omega
  · exact List.pairwise_map.2 h.popped_sorted
  · rcases h.covered i hi with ⟨⟨v, j⟩, he, rfl⟩ | hr
    · exact .inl ⟨v, he⟩
    · exact .inr hr

end UacDriver

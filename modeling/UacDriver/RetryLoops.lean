import Mathlib.Algebra.BigOperators.Group.List.Basic
import UacDriver.Driver
import UacDriver.Lib.CasLoop
import UacDriver.Lib.Meters

/-!
# The compare-exchange loops of the driver

The threads of a session share counters that they move with `compare_exchange_weak` loops: the high and low waters of
the envelope, `queuedOutFrames_`, and the credit that `takePlaybackCredit` spends. `Driver` takes each of these loops as
one step. Here the loops run as they are, load by load and exchange by exchange, on any number of threads, with exchanges
that fail for no reason, next to the stores and additions of other threads.
-/

namespace UacDriver

open CasLoop Runs
open CasLoop.Object (callsOf invoked retries others stale answers_start)

/-! ### The loops -/

/-- `while (v > high && !high_.compare_exchange_weak(high, v)) {}`; an update is the store that begins an epoch. -/
def highWater (α : Type*) [LinearOrder α] : Object α α α where
  attempt v high := if v > high then some v else none
  update reset _ := reset

def lowWater (α : Type*) [LinearOrder α] : Object α α α where
  attempt v low := if v < low then some v else none
  update reset _ := reset

/-- `subtractQueued(queuedOutFrames_, amount)`; an update is the addition of submitted frames. -/
def queueCell : Object Nat Nat Nat where
  attempt amount current := if current = 0 then none else some (if current > amount then current - amount else 0)
  update frames current := current + frames

/-- The loop of `takePlaybackCredit`, behind the load of its floor. -/
structure CreditTake where
  frames : Int
  floor : Int

/-- `playbackCredit_`; an update is a `fetch_add` of played frames or the `fetch_sub` of `chargePlaybackCredit`. -/
def creditCell : Object Int CreditTake Int where
  attempt take credit := if credit - take.frames ≥ take.floor then some (credit - take.frames) else none
  update delta credit := credit + delta

/-! ### The single steps of `Driver` -/

theorem highWater_apply {α : Type*} [LinearOrder α] (high v : α) : (highWater α).apply high (.inl v) = max high v := by
  show (if v > high then some v else none).getD high = max high v
  split
  · rename_i h
    exact (max_eq_right h.le).symm
  · rename_i h
    exact (max_eq_left (not_lt.1 h)).symm

theorem queueCell_apply (current amount : Nat) : queueCell.apply current (.inl amount) = current - amount := by
  show (if current = 0 then none else some (if current > amount then current - amount else 0)).getD current = _
  split_ifs <;> simp only [Option.getD_none, Option.getD_some] <;> omega

section SingleSteps

variable {w : Nat} (p : Playback w)

theorem queueCell_subtract (amount : Nat) :
    queueCell.apply p.queuedOutFrames (.inl amount) = (p.subtractQueued amount).queuedOutFrames := queueCell_apply ..

theorem queueCell_submitted {d : Driver w} (i : Nat) (implicit : Bool) :
    queueCell.apply d.pb.queuedOutFrames (.inr (d.outFrames i)) = (d.queueSubmitted i implicit).pb.queuedOutFrames := rfl

/-- Behind its two early returns the call is the loop. -/
theorem creditCell_take {frames : Int} (hpos : 0 < frames) (hstarted : p.playbackStarted = true) :
    creditCell.apply p.playbackCredit (.inl ⟨frames, p.creditFloor⟩) = (p.takePlaybackCredit frames).1.playbackCredit ∧
      (creditCell.attempt ⟨frames, p.creditFloor⟩ p.playbackCredit).isSome = (p.takePlaybackCredit frames).2 := by
  have hnot : ¬frames ≤ 0 := by omega
  unfold Playback.takePlaybackCredit
  rw [if_neg hnot, if_neg (by simp [hstarted])]
  by_cases hpaid : p.playbackCredit - frames ≥ p.creditFloor
  · simp [creditCell, Object.apply, hpaid]
  · simp [creditCell, Object.apply, hpaid]

theorem creditCell_charge {frames : Int} (hpos : 0 < frames) (hstarted : p.playbackStarted = true) :
    creditCell.apply p.playbackCredit (.inr (-frames)) = (p.chargePlaybackCredit frames).playbackCredit := by
  have hnot : ¬frames ≤ 0 := by omega
  unfold Playback.chargePlaybackCredit
  rw [if_neg hnot, if_neg (by simp [hstarted])]
  exact (Int.sub_eq_add_neg).symm

theorem highWater_written :
    (highWater Nat).apply p.maxWritesBetweenDrains (.inl (p.writesSinceDrain + 1)) =
      p.noteQuantumWritten.maxWritesBetweenDrains := highWater_apply ..

end SingleSteps

/-! ### Waters -/

/-- The values offered by the calls in a log. -/
def offered {ι α : Type*} (taken : List (Entry ι α α α)) : Set α := {v | ∃ e ∈ taken, e.op = .inl v}

section Waters

variable {ι α : Type*} [LinearOrder α]

theorem isGreatest_of_legal {a b : α} {taken : List (Entry ι α α α)} (h : (highWater α).Legal a taken b)
    (hcalls : ∀ e ∈ taken, ∃ v, e.op = .inl v) : IsGreatest (insert a (offered taken)) b := by
  obtain ⟨vs, hvs⟩ : ∃ vs : List α, taken.map (·.op) = vs.map .inl := by
    clear h
    induction taken with
    | nil => exact ⟨[], rfl⟩
    | cons e taken ih =>
      obtain ⟨v, hv⟩ := hcalls e List.mem_cons_self
      obtain ⟨vs, hvs⟩ := ih fun e he => hcalls e (List.mem_cons_of_mem _ he)
      exact ⟨v :: vs, by rw [List.map_cons, hv, hvs]; rfl⟩
  have hoffered : offered taken = {v | v ∈ vs} := by
    ext v
    have hmem : (∃ e ∈ taken, e.op = .inl v) ↔ (Sum.inl v : α ⊕ α) ∈ taken.map (·.op) := List.mem_map.symm
    show (∃ e ∈ taken, e.op = .inl v) ↔ v ∈ vs
    rw [hmem, hvs, List.mem_map_of_injective Sum.inl_injective]
  have hfold : b = vs.foldl max a := by
    rw [h.eq_foldl, hvs, List.foldl_map]
    exact congrArg (fun f => vs.foldl f a) (funext fun high => funext fun v => highWater_apply high v)
  rw [hoffered, hfold]
  exact Meters.isGreatest_foldl_max a vs

variable [DecidableEq ι]

/-- Over an epoch, the steps after the last store: what the cell has become, by the calls of all threads. -/
def Epoch (o : Object α α α) (Extreme : Set α → α → Prop) (s : Sys ι α α α) (as : List (Act ι α α)) : Prop :=
  ∃ taken, o.History s as taken ∧ Extreme (insert s.cell (offered taken)) (run o.step s as).cell

theorem highWater_epoch (s : Sys ι α α α) {as : List (Act ι α α)} (hstores : ∀ i x, .update i x ∉ as) :
    Epoch (highWater α) IsGreatest s as := by
  obtain ⟨taken, h⟩ := (highWater α).run_history s as
  refine ⟨taken, h, isGreatest_of_legal h.legal fun e he => ?_⟩
  cases hop : e.op with
  | inl v => exact ⟨v, rfl⟩
  | inr x => exact absurd (h.updates e he x hop) (hstores _ _)

/-- The high and low waters of a session, on any number of threads and in every interleaving of their loads and
exchanges: whatever has gone on before, since the last store of a new epoch the cell is the greatest (or least) of what
was stored and of the values of the calls that have taken effect, and these are all the calls that have returned. -/
theorem waters_exact (a : α) (before after : List (Act ι α α)) (hstores : ∀ i x, .update i x ∉ after) :
    Epoch (highWater α) IsGreatest (run (highWater α).step (start a) before) after ∧
      Epoch (lowWater α) IsLeast (run (lowWater α).step (start a) before) after :=
  ⟨highWater_epoch _ hstores, highWater_epoch (α := αᵒᵈ) _ hstores⟩

/-- Threads 0 and 1 have loaded 5 for their values 7 and 9 when thread 2 stores 0: the new epoch ends at 9, with the
value of the slower thread not above it. -/
theorem waters_exact_store :
    let before : List (Act (Fin 3) Nat Nat) := [.invoke 0 7, .invoke 1 9, .load 0, .load 1, .update 2 0]
    let after : List (Act (Fin 3) Nat Nat) := [.swap 1 false, .swap 1 true, .swap 1 false, .swap 0 false]
    (run (highWater Nat).step (run (highWater Nat).step (start 5) before) after).cell = 9 ∧
      Epoch (highWater Nat) IsGreatest (run (highWater Nat).step (start 5) before) after ∧
      Epoch (lowWater Nat) IsLeast (run (lowWater Nat).step (start 5) before) after := by
  intro before after
  have hstores : ∀ i x, (.update i x : Act (Fin 3) Nat Nat) ∉ after := fun i x h => by simp [after] at h
  exact ⟨by decide, waters_exact 5 before after hstores⟩

end Waters

/-! ### The queue -/

section Queue

variable {ι : Type*}

def addedFrames (taken : List (Entry ι Nat Nat Nat)) : Nat := (taken.filterMap (·.op.getRight?)).sum

def removedFrames (taken : List (Entry ι Nat Nat Nat)) : Nat := (taken.filterMap (·.op.getLeft?)).sum

/-- Every subtraction finds at least the frames it takes off. -/
def Covered (taken : List (Entry ι Nat Nat Nat)) : Prop := ∀ e ∈ taken, ∀ amount, e.op = .inl amount → amount ≤ e.seen

theorem queue_of_legal {a b : Nat} {taken : List (Entry ι Nat Nat Nat)} (h : queueCell.Legal a taken b) :
    b ≤ a + addedFrames taken ∧ a + addedFrames taken ≤ b + removedFrames taken ∧
      (b + removedFrames taken = a + addedFrames taken ↔ Covered taken) := by
  induction taken generalizing a with
  | nil =>
    obtain rfl := h
    exact ⟨Nat.le_refl _, Nat.le_refl _, iff_of_true rfl fun _ he => absurd he List.not_mem_nil⟩
  | cons e taken ih =>
    obtain ⟨i, op, seen, swapped⟩ := e
    obtain ⟨hseen, hrest⟩ := h
    obtain rfl : seen = a := hseen
    obtain ⟨hle, hge, hiff⟩ := ih hrest
    have hcovered : Covered (⟨i, op, seen, swapped⟩ :: taken) ↔
        (∀ amount, op = .inl amount → amount ≤ seen) ∧ Covered taken := List.forall_mem_cons
    rw [hcovered, ← hiff]
    clear hiff hrest
    cases op with
    | inl amount =>
      have hadded : addedFrames (⟨i, .inl amount, seen, swapped⟩ :: taken) = addedFrames taken := rfl
      have hremoved : removedFrames (⟨i, .inl amount, seen, swapped⟩ :: taken) = amount + removedFrames taken :=
        List.sum_cons
      rw [queueCell_apply] at hle hge ⊢
      rw [hadded, hremoved]
      refine ⟨by omega, by omega, fun heq => ⟨?_, by omega⟩, fun hboth => ?_⟩
      · rintro _ ⟨⟩
        omega
      · have hfits := hboth.1 amount rfl
        omega
    | inr frames =>
      have hadded : addedFrames (⟨i, .inr frames, seen, swapped⟩ :: taken) = frames + addedFrames taken := List.sum_cons
      have hremoved : removedFrames (⟨i, .inr frames, seen, swapped⟩ :: taken) = removedFrames taken := rfl
      have happly : queueCell.apply seen (.inr frames) = seen + frames := rfl
      rw [happly] at hle hge ⊢
      rw [hadded, hremoved]
      refine ⟨by omega, by omega, fun heq => ⟨?_, by omega⟩, fun hboth => by omega⟩
      rintro _ ⟨⟩

/-- `queuedOutFrames_` under the subtractions of completions and the additions of submits, in every interleaving of
their loads and exchanges: no addition is lost and no subtraction takes more than its frames, and the count is what was
added less what was taken off if and only if every subtraction finds its frames counted. -/
theorem queue_exact_iff [DecidableEq ι] (s : Sys ι Nat Nat Nat) (as : List (Act ι Nat Nat)) :
    ∃ taken, queueCell.History s as taken ∧
      let queued := (run queueCell.step s as).cell
      queued ≤ s.cell + addedFrames taken ∧ s.cell + addedFrames taken ≤ queued + removedFrames taken ∧
        (queued + removedFrames taken = s.cell + addedFrames taken ↔ Covered taken) := by
  obtain ⟨taken, h⟩ := queueCell.run_history s as
  exact ⟨taken, h, queue_of_legal h.legal⟩

end Queue

/-! ### The credit -/

section Credit

variable {ι : Type*}

def spentBy : Entry ι Int CreditTake Int → Int
  | ⟨_, .inl take, _, paid⟩ => if paid then take.frames else 0
  | ⟨_, .inr _, _, _⟩ => 0

def grantedBy : Entry ι Int CreditTake Int → Int
  | ⟨_, .inl _, _, _⟩ => 0
  | ⟨_, .inr delta, _, _⟩ => delta

def spent (taken : List (Entry ι Int CreditTake Int)) : Int := (taken.map spentBy).sum

def granted (taken : List (Entry ι Int CreditTake Int)) : Int := (taken.map grantedBy).sum

/-- A call returns whether it has paid, and it has paid if and only if the credit it found covers its frames. -/
def Honest (e : Entry ι Int CreditTake Int) : Prop :=
  ∀ take, e.op = .inl take → (e.swapped = true ↔ take.floor ≤ e.seen - take.frames)

theorem honest_of_answers [DecidableEq ι] {s : Sys ι Int CreditTake Int} (h : creditCell.Answers s)
    {e : Entry ι Int CreditTake Int} (he : e ∈ s.log) : Honest e := by
  intro take hop
  rw [h.returned e he take hop]
  show (if e.seen - take.frames ≥ take.floor then some (e.seen - take.frames) else none).isSome = true ↔ _
  split
  · rename_i hpaid
    exact iff_of_true rfl hpaid
  · rename_i hpaid
    exact iff_of_false Bool.false_ne_true hpaid

theorem credit_of_legal {a b : Int} {taken : List (Entry ι Int CreditTake Int)} (h : creditCell.Legal a taken b)
    (hhonest : ∀ e ∈ taken, Honest e) : b = a + granted taken - spent taken := by
  induction taken generalizing a with
  | nil =>
    obtain rfl := h
    simp [granted, spent]
  | cons e taken ih =>
    obtain ⟨hseen, hrest⟩ := h
    obtain ⟨hfirst, hhonest⟩ := List.forall_mem_cons.1 hhonest
    have hgranted : granted (e :: taken) = grantedBy e + granted taken := List.sum_cons
    have hspent : spent (e :: taken) = spentBy e + spent taken := List.sum_cons
    have hstep : creditCell.apply a e.op = a + grantedBy e - spentBy e := by
      obtain ⟨i, op, seen, paid⟩ := e
      obtain rfl : seen = a := hseen
      cases op with
      | inl take =>
        have hpaid := hfirst take rfl
        show (if seen - take.frames ≥ take.floor then some (seen - take.frames) else none).getD seen =
          seen + 0 - if paid then take.frames else 0
        dsimp only at hpaid
        by_cases hcovers : take.floor ≤ seen - take.frames
        · rw [if_pos hcovers, if_pos (hpaid.2 hcovers), Option.getD_some]
          omega
        · rw [if_neg hcovers, if_neg fun h => hcovers (hpaid.1 h), Option.getD_none]
          omega
      | inr delta =>
        show seen + delta = seen + delta - 0
        omega
    rw [ih hrest hhonest, hstep]
    omega

/-- `playbackCredit_` under any number of concurrent `takePlaybackCredit` calls, charges and completions, in every
interleaving of their loads and exchanges: what is left is what was there with all grants and charges, less the frames of
the calls that returned true, each of them spent once; a call returns true if and only if the credit it acted on covers
its frames down to its floor; and a call goes round again for a changed credit at most once for each call, charge or grant
of another thread. -/
theorem credit_spent_once [DecidableEq ι] (a : Int) (as : List (Act ι CreditTake Int)) :
    let s := run creditCell.step (start a) as
    s.cell = a + granted s.log - spent s.log ∧ creditCell.Legal a s.log s.cell ∧ (∀ e ∈ s.log, Honest e) ∧
      (∀ i, callsOf i s.log ++ (s.pc i).call = log creditCell.step (invoked i) (start a) as) ∧
      ∀ i, (log creditCell.step (retries i) (start a) as).length ≤ others i s.log := by
  intro s
  obtain ⟨taken, h⟩ := creditCell.run_history (start a : Sys ι Int CreditTake Int) as
  have hlog : s.log = taken := h.log
  have hhonest : ∀ e ∈ s.log, Honest e := fun e he => honest_of_answers ((answers_start creditCell a).run as) he
  refine ⟨?_, hlog ▸ h.legal, hhonest, fun i => hlog ▸ h.calls i, fun i => ?_⟩
  · rw [hlog] at hhonest ⊢
    exact credit_of_legal h.legal hhonest
  · have hrounds := creditCell.run_retries i (start a) as
    have hfresh : others i (start a : Sys ι Int CreditTake Int).log = 0 ∧
        stale i (start a : Sys ι Int CreditTake Int) = 0 := ⟨rfl, rfl⟩
    have hsame : others i (run creditCell.step (start a) as).log = others i s.log := rfl
    omega

end Credit

end UacDriver

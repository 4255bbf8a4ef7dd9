import UacDriver.QueueRace

/-!
# The count of submitted frames over the submission loop

The equation that every step of the two threads keeps is

  counted + to be added = owned by libusb + to be subtracted + lost,

in frames, where a subtraction that stops short at zero loses the difference. What the control thread is going to add
is fixed when it submits, as long as nobody refills the transfer while it still reads the descriptors. So when the loop
has returned and no callback runs, the count is right exactly if nothing was lost.
-/

namespace UacDriver

open Runs

namespace SubmitPc

/-- The transfer whose descriptors the control thread is reading. -/
def reading : SubmitPc → Option Nat
  | count i _ _ _ => some i
  | _ => none

/-- The frames the control thread has submitted and is going to add. -/
def toAdd (q : Queue) : SubmitPc → Nat
  | count i p frames _ => frames + (((q.lengths i).drop p).map (· / q.stride)).sum
  | add _ frames _ => frames
  | _ => 0

def todo : SubmitPc → List Xfer
  | enter left => left
  | submit x left => x :: left
  | count _ _ _ left | add _ _ left => left
  | _ => []

/-- Counted in `inflight_` by the control thread and not submitted yet. -/
def entered : SubmitPc → Nat
  | submit _ _ => 1
  | _ => 0

/-- Past the store of the stop flag. -/
def stopping : SubmitPc → Bool
  | wait | join | free => true
  | _ => false

/-- Past the last look at `inflight_`. -/
def settled : SubmitPc → Bool
  | join | free => true
  | _ => false

end SubmitPc

namespace IsoPc

/-- The transfer given back whose frames are not subtracted yet. -/
def unsubtracted : IsoPc → Option Nat
  | entry i => some i
  | _ => none

/-- The transfer submitted again whose frames are not added yet. -/
def unadded : IsoPc → Option Nat
  | count i _ => some i
  | _ => none

/-- The transfer that the callback has in hand. -/
def serving : IsoPc → Option Nat
  | entry i | check i | fill i | defer i | submit i _ => some i
  | _ => none

/-- Counted in `inflight_` and not owned by libusb. -/
def held : IsoPc → Nat
  | idle | count _ _ => 0
  | _ => 1

end IsoPc

def Queue.of (q : Queue) (o : Option Nat) : Nat := o.elim 0 q.frames

@[simp] theorem Queue.of_none (q : Queue) : q.of none = 0 := rfl

@[simp] theorem Queue.of_some (q : Queue) (i : Nat) : q.of (some i) = q.frames i := rfl

namespace SubmitRace

/-- Between the steps of the two threads, with `lost` frames lost by subtractions. -/
structure Inv (q : Queue) (lost : Nat) (ctl : SubmitPc) (evt : IsoPc) : Prop where
  counted : q.queued + ctl.toAdd q + q.of evt.unadded = q.total + q.of evt.unsubtracted + lost
  unadded : ∀ i, evt.unadded = some i → .out i ∈ q.owned
  serving : ∀ i, evt.serving = some i → .out i ∉ q.owned ∧ .out i ∉ ctl.todo ∧ i ∉ q.deferred
  deferred : ∀ i ∈ q.deferred, .out i ∉ q.owned ∧ .out i ∉ ctl.todo
  deferred_nodup : q.deferred.Nodup
  todo : ∀ x ∈ ctl.todo, x ∉ q.owned
  todo_nodup : ctl.todo.Nodup
  inflight : (q.live + evt.held + ctl.entered : Nat) ≤ q.inflight
  stopping : ctl.stopping = true → q.stop = true
  settled : ctl.settled = true → q.live = 0 ∧ evt.held = 0

/-- The transfers a step may refill: by their own completion, or by the capture completion that releases the
deferred ones. -/
def refills {w : Nat} (s : SubmitRace w) : SubmitRaceAct → List Nat
  | .callback _ => match s.evt with | .fill i => [i] | _ => []
  | .other (.captureDone ..) => s.drv.pending
  | _ => []

/-- No refill of a transfer whose descriptors the control thread is reading. -/
def Unread {w : Nat} (s : SubmitRace w) (a : SubmitRaceAct) : Prop := ∀ i ∈ s.refills a, s.ctl.reading ≠ some i

/-- A completion takes no more off the count than is counted. -/
def Covered {w : Nat} (s : SubmitRace w) : SubmitRaceAct → Prop
  | .callback _ => s.taking ≤ s.drv.pb.queuedOutFrames
  | _ => True

namespace Inv

variable {q : Queue} {lost : Nat} {ctl : SubmitPc} {evt : IsoPc}

/-! The event thread. -/

theorem giveBack {i : Nat} (h : Inv q lost ctl .idle) (hi : .out i ∈ q.owned) :
    Inv (q.giveBack (.out i)) lost ctl (.entry i) := by
  have htotal := Queue.total_giveBack hi
  have hlive := Queue.live_giveBack hi rfl
  have hc : q.queued + ctl.toAdd q + 0 = q.total + 0 + lost := h.counted
  have hin := h.inflight
  refine ⟨?_, fun k hk => ?_, fun k hk => ?_, fun k hk => ?_, h.deferred_nodup, fun x hx hmem => ?_, h.todo_nodup, ?_,
    h.stopping, fun hs => ?_⟩
  · show q.queued + ctl.toAdd q + 0 = (q.giveBack (.out i)).total + q.xferFrames (.out i) + lost
    omega
  · cases hk
  · cases hk
    exact ⟨Finset.notMem_erase _ _, fun hmem => h.todo _ hmem hi, fun hmem => (h.deferred _ hmem).1 hi⟩
  · exact ⟨fun hmem => (h.deferred k hk).1 (Finset.mem_of_mem_erase hmem), (h.deferred k hk).2⟩
  · exact h.todo x hx (Finset.mem_of_mem_erase hmem)
  · simp only [IsoPc.held] at hin ⊢
    show (((q.giveBack (.out i)).live + 1 + ctl.entered : Nat) : Int) ≤ q.inflight
    omega
  · have := (h.settled hs).1
    omega

/-- The subtraction loses what it cannot take. -/
theorem subtract {i : Nat} (h : Inv q lost ctl (.entry i)) :
    Inv (q.subtract (q.frames i)) (lost + (q.frames i - q.queued)) ctl (.check i) := by
  have hc : q.queued + ctl.toAdd q + 0 = q.total + q.frames i + lost := h.counted
  refine ⟨?_, fun k hk => ?_, h.serving, h.deferred, h.deferred_nodup, h.todo, h.todo_nodup, h.inflight, h.stopping,
    h.settled⟩
  · show q.queued - q.frames i + ctl.toAdd q + 0 = q.total + 0 + (lost + (q.frames i - q.queued))
    omega
  · cases hk

/-- A step of the event thread that only moves on. -/
theorem move {evt' : IsoPc} (h : Inv q lost ctl evt) (hadd : evt'.unadded = evt.unadded)
    (hsub : evt'.unsubtracted = evt.unsubtracted) (hserving : ∀ i, evt'.serving = some i → evt.serving = some i)
    (hheld : evt'.held = evt.held) : Inv q lost ctl evt' := by
  refine ⟨?_, fun k hk => ?_, fun k hk => h.serving k (hserving k hk), h.deferred, h.deferred_nodup, h.todo,
    h.todo_nodup, ?_, h.stopping, fun hs => ?_⟩
  · rw [hadd, hsub]
    exact h.counted
  · exact h.unadded k (hadd ▸ hk)
  · rw [hheld]
    exact h.inflight
  · rw [hheld]
    exact h.settled hs

theorem refill {i : Nat} (h : Inv q lost ctl evt) (hi : .out i ∉ q.owned) (hread : ctl.reading ≠ some i)
    (hsub : evt.unsubtracted = none) (hadd : evt.unadded = none) (lengths : List Nat) :
    Inv (q.refill i lengths) lost ctl evt := by
  have htoAdd : ctl.toAdd (q.refill i lengths) = ctl.toAdd q := by
    cases ctl with
    | count k p frames left =>
      have hk : k ≠ i := fun he => hread (congrArg some he)
      simp only [SubmitPc.toAdd, Queue.refill, Function.update_of_ne hk]
    | _ => rfl
  refine ⟨?_, h.unadded, h.serving, h.deferred, h.deferred_nodup, h.todo, h.todo_nodup, h.inflight, h.stopping, h.settled⟩
  have hc := h.counted
  rw [hsub, hadd] at hc ⊢
  rw [htoAdd, Queue.total_refill hi]
  exact hc

theorem resubmit {i : Nat} {implicit : Bool} (h : Inv q lost ctl (.submit i implicit)) :
    Inv (q.submit (.out i)) lost ctl (.count i implicit) := by
  obtain ⟨hi, htodo, hdef⟩ := h.serving i rfl
  have htotal := Queue.total_submit hi
  have hlive := Queue.live_submit_le (q := q) (.out i)
  have hin := h.inflight
  have hc : q.queued + ctl.toAdd q + 0 = q.total + 0 + lost := h.counted
  refine ⟨?_, fun k hk => ?_, fun k hk => ?_, fun k hk => ⟨fun hmem => ?_, (h.deferred k hk).2⟩, h.deferred_nodup,
    fun x hx hmem => ?_, h.todo_nodup, ?_, h.stopping, fun hs => ?_⟩
  · rw [htotal]
    show q.queued + ctl.toAdd q + q.frames i = q.total + q.frames i + 0 + lost
    omega
  · cases hk
    exact Finset.mem_insert_self ..
  · cases hk
  · rcases Finset.mem_insert.1 hmem with he | hmem
    · cases he
      exact hdef hk
    · exact (h.deferred k hk).1 hmem
  · rcases Finset.mem_insert.1 hmem with rfl | hmem
    · exact htodo hx
    · exact h.todo x hx hmem
  · simp only [IsoPc.held] at hin ⊢
    show (((q.submit (.out i)).live + 0 + ctl.entered : Nat) : Int) ≤ q.inflight
    omega
  · exact absurd (h.settled hs).2 Nat.one_ne_zero

theorem count {i : Nat} {implicit : Bool} (h : Inv q lost ctl (.count i implicit)) :
    Inv (q.add (q.frames i)) lost ctl .idle := by
  have hc : q.queued + ctl.toAdd q + q.frames i = q.total + 0 + lost := h.counted
  refine ⟨?_, fun k hk => ?_, fun k hk => ?_, h.deferred, h.deferred_nodup, h.todo, h.todo_nodup, h.inflight, h.stopping,
    h.settled⟩
  · show q.queued + q.frames i + ctl.toAdd q + 0 = q.total + 0 + lost
    omega
  · cases hk
  · cases hk

/-- The end of a callback that does not submit its transfer again. -/
theorem retire (h : Inv q lost ctl evt) (hadd : evt.unadded = none) (hsub : evt.unsubtracted = none)
    (hheld : evt.held = 1) : Inv q.retire lost ctl .idle := by
  have hin := h.inflight
  have hc := h.counted
  rw [hadd, hsub] at hc
  refine ⟨hc, fun k hk => ?_, fun k hk => ?_, h.deferred, h.deferred_nodup, h.todo, h.todo_nodup, ?_, h.stopping,
    fun hs => ⟨(h.settled hs).1, rfl⟩⟩
  · cases hk
  · cases hk
  · show ((q.live + 0 + ctl.entered : Nat) : Int) ≤ q.inflight - 1
    omega

theorem halt (h : Inv q lost ctl evt) : Inv q.halt lost ctl evt :=
  ⟨h.counted, h.unadded, h.serving, h.deferred, h.deferred_nodup, h.todo, h.todo_nodup, h.inflight, fun _ => rfl,
    h.settled⟩

theorem defer {i : Nat} (h : Inv q lost ctl (.defer i)) : Inv (q.defer i) lost ctl .idle := by
  obtain ⟨hi, htodo, hdef⟩ := h.serving i rfl
  have hr := h.retire rfl rfl rfl
  refine ⟨hr.counted, hr.unadded, fun k hk => ?_, fun k hk => ?_, ?_, hr.todo, hr.todo_nodup, hr.inflight, hr.stopping,
    hr.settled⟩
  · cases hk
  · rcases List.mem_append.1 hk with hk | hk
    · exact h.deferred k hk
    · cases List.mem_singleton.1 hk
      exact ⟨hi, htodo⟩
  · refine List.nodup_append.2 ⟨h.deferred_nodup, List.nodup_singleton i, ?_⟩
    rintro a ha b hb rfl
    exact hdef (List.mem_singleton.1 hb ▸ ha)

/-- A deferred transfer, refilled already, is counted in, submitted and added at once. -/
theorem releaseDeferred {i : Nat} {rest : List Nat} (h : Inv { q with deferred := i :: rest } lost ctl .idle)
    (hrun : q.stop = false) :
    Inv { (q.enter.submit (.out i)).add (q.frames i) with deferred := rest } lost ctl .idle := by
  obtain ⟨hi, htodo⟩ := h.deferred i List.mem_cons_self
  obtain ⟨hrest, hnodup⟩ := List.nodup_cons.1 h.deferred_nodup
  have htotal : (q.submit (.out i)).total = q.total + q.frames i := Queue.total_submit hi
  have hlive := Queue.live_submit_le (q := q) (.out i)
  have hin : ((q.live + 0 + ctl.entered : Nat) : Int) ≤ q.inflight := h.inflight
  have hc : q.queued + ctl.toAdd q + 0 = q.total + 0 + lost := h.counted
  refine ⟨?_, fun k hk => ?_, fun k hk => ?_, fun k hk => ⟨fun hmem => ?_, ?_⟩, hnodup, fun x hx hmem => ?_, h.todo_nodup,
    ?_, h.stopping, fun hs => ?_⟩
  · show q.queued + q.frames i + ctl.toAdd q + 0 = (q.submit (.out i)).total + 0 + lost
    omega
  · cases hk
  · cases hk
  · rcases Finset.mem_insert.1 hmem with he | hmem
    · cases he
      exact hrest hk
    · exact (h.deferred k (List.mem_cons_of_mem _ hk)).1 hmem
  · exact (h.deferred k (List.mem_cons_of_mem _ hk)).2
  · rcases Finset.mem_insert.1 hmem with rfl | hmem
    · exact htodo hx
    · exact h.todo x hx hmem
  · show (((q.submit (.out i)).live + 0 + ctl.entered : Nat) : Int) ≤ q.inflight + 1
    omega
  · -- past the last look at `inflight_` the stop flag is set
    have hstop : q.stop = true := by
      refine h.stopping ?_
      cases ctl <;> first | rfl | cases hs
    rw [hrun] at hstop
    cases hstop

/-- libusb gives a feedback or capture transfer back. -/
theorem giveBackOther {x : Xfer} (h : Inv q lost ctl .idle) (hx : ∀ i, x ≠ .out i) : Inv (q.giveBack x) lost ctl .idle := by
  have htotal : (q.giveBack x).total = q.total := by
    by_cases hmem : x ∈ q.owned
    · have := Queue.total_giveBack hmem
      cases x with
      | out i => exact absurd rfl (hx i)
      | _ => exact this
    · simp only [Queue.giveBack, Finset.erase_eq_of_notMem hmem]
  have hlive := Queue.live_giveBack_le (q := q) x
  have hin := h.inflight
  refine ⟨?_, fun k hk => ?_, fun k hk => ?_, fun k hk => ?_, h.deferred_nodup, fun y hy hmem => ?_, h.todo_nodup, ?_,
    h.stopping, fun hs => ⟨?_, rfl⟩⟩
  · rw [htotal]
    exact h.counted
  · cases hk
  · cases hk
  · exact ⟨fun hmem => (h.deferred k hk).1 (Finset.mem_of_mem_erase hmem), (h.deferred k hk).2⟩
  · exact h.todo y hy (Finset.mem_of_mem_erase hmem)
  · show (((q.giveBack x).live + IsoPc.idle.held + ctl.entered : Nat) : Int) ≤ q.inflight
    omega
  · have := (h.settled hs).1
    omega

theorem retireFeedback {k : Nat} (h : Inv q lost ctl .idle) (hk : .feedback k ∈ q.owned) :
    Inv (q.giveBack (.feedback k)).retire lost ctl .idle := by
  have h' := h.giveBackOther (x := .feedback k) (fun _ => by simp)
  have hlive := Queue.live_giveBack hk rfl
  have hin := h.inflight
  refine ⟨h'.counted, h'.unadded, h'.serving, h'.deferred, h'.deferred_nodup, h'.todo, h'.todo_nodup, ?_, h'.stopping,
    h'.settled⟩
  show (((q.giveBack (.feedback k)).live + IsoPc.idle.held + ctl.entered : Nat) : Int) ≤ q.inflight - 1
  omega

theorem submitCapture {j : Nat} (h : Inv q lost ctl .idle) (hj : .capture j ∉ ctl.todo) :
    Inv (q.submit (.capture j)) lost ctl .idle := by
  have hmem {i : Nat} : .out i ∈ insert (Xfer.capture j) q.owned ↔ .out i ∈ q.owned := by simp
  have htotal : (q.submit (.capture j)).total = q.total := by
    by_cases hown : .capture j ∈ q.owned
    · simp only [Queue.submit, Finset.insert_eq_of_mem hown]
    · exact Queue.total_submit hown
  refine ⟨?_, fun k hk => ?_, fun k hk => ?_, fun k hk => ?_, h.deferred_nodup, fun x hx hown => ?_, h.todo_nodup, ?_,
    h.stopping, fun hs => ?_⟩
  · rw [htotal]
    exact h.counted
  · cases hk
  · cases hk
  · exact ⟨fun hown => (h.deferred k hk).1 (hmem.1 hown), (h.deferred k hk).2⟩
  · rcases Finset.mem_insert.1 hown with rfl | hown
    · exact hj hx
    · exact h.todo x hx hown
  · rw [Queue.live_submit_capture]
    exact h.inflight
  · rw [Queue.live_submit_capture]
    exact h.settled hs

/-! The control thread. -/

/-- A step of the control thread that neither submits nor touches a counter. -/
theorem moveControl {ctl' : SubmitPc} (h : Inv q lost ctl evt) (htoAdd : ctl'.toAdd q = ctl.toAdd q)
    (htodo : ctl'.todo = ctl.todo) (hentered : ctl'.entered = ctl.entered)
    (hstopping : ctl'.stopping = true → q.stop = true) (hsettled : ctl'.settled = true → q.live = 0 ∧ evt.held = 0) :
    Inv q lost ctl' evt := by
  refine ⟨?_, h.unadded, ?_, ?_, h.deferred_nodup, ?_, ?_, ?_, hstopping, hsettled⟩
  · rw [htoAdd]
    exact h.counted
  · rw [htodo]
    exact h.serving
  · rw [htodo]
    exact h.deferred
  · rw [htodo]
    exact h.todo
  · rw [htodo]
    exact h.todo_nodup
  · rw [hentered]
    exact h.inflight

theorem enter {x : Xfer} {left : List Xfer} (h : Inv q lost (.enter (x :: left)) evt) :
    Inv q.enter lost (.submit x left) evt := by
  have hin := h.inflight
  refine ⟨h.counted, h.unadded, h.serving, h.deferred, h.deferred_nodup, h.todo, h.todo_nodup, ?_, fun hs => ?_,
    fun hs => ?_⟩
  · show ((q.live + evt.held + 1 : Nat) : Int) ≤ q.inflight + 1
    simp only [SubmitPc.entered] at hin
    omega
  · cases hs
  · cases hs

/-- The first submit of a transfer, whatever the control thread does next with the transfers left. -/
theorem submitFirst {x : Xfer} {left : List Xfer} (h : Inv q lost (.submit x left) evt) (ctl' : SubmitPc)
    (htodo : ctl'.todo = left) (htoAdd : ctl'.toAdd (q.submit x) = q.xferFrames x) (hentered : ctl'.entered = 0)
    (hstopping : ctl'.stopping = false) (hsettled : ctl'.settled = false) : Inv (q.submit x) lost ctl' evt := by
  have hx := h.todo x List.mem_cons_self
  obtain ⟨hleft, hnodup⟩ := List.nodup_cons.1 h.todo_nodup
  have htotal := Queue.total_submit hx
  have hlive := Queue.live_submit_le (q := q) x
  have hin : ((q.live + evt.held + 1 : Nat) : Int) ≤ q.inflight := h.inflight
  have hc : q.queued + 0 + q.of evt.unadded = q.total + q.of evt.unsubtracted + lost := h.counted
  have hfree {i : Nat} (ho : .out i ∉ q.owned) (ht : .out i ∉ x :: left) :
      .out i ∉ (q.submit x).owned ∧ .out i ∉ left := by
    rw [List.mem_cons, not_or] at ht
    exact ⟨fun hmem => (Finset.mem_insert.1 hmem).elim ht.1 ho, ht.2⟩
  refine ⟨?_, fun i hi => Finset.mem_insert_of_mem (h.unadded i hi), fun i hi => ?_, fun i hi => ?_, h.deferred_nodup,
    fun y hy hmem => ?_, ?_, ?_, fun hs => ?_, fun hs => ?_⟩
  · rw [htoAdd, htotal]
    show q.queued + q.xferFrames x + q.of evt.unadded = q.total + q.xferFrames x + q.of evt.unsubtracted + lost
    omega
  · obtain ⟨ho, ht, hd⟩ := h.serving i hi
    rw [htodo]
    exact ⟨(hfree ho ht).1, (hfree ho ht).2, hd⟩
  · rw [htodo]
    exact hfree (h.deferred i hi).1 (h.deferred i hi).2
  · rw [htodo] at hy
    rcases Finset.mem_insert.1 hmem with rfl | hmem
    · exact hleft hy
    · exact h.todo y (List.mem_cons_of_mem _ hy) hmem
  · rw [htodo]
    exact hnodup
  · rw [hentered]
    show (((q.submit x).live + evt.held + 0 : Nat) : Int) ≤ q.inflight
    omega
  · rw [hstopping] at hs
    cases hs
  · rw [hsettled] at hs
    cases hs

theorem submitRefused {x : Xfer} {left : List Xfer} (h : Inv q lost (.submit x left) evt) :
    Inv q.retire lost .stop evt := by
  have hin := h.inflight
  refine ⟨h.counted, h.unadded, fun i hi => ?_, fun i hi => ⟨(h.deferred i hi).1, List.not_mem_nil⟩, h.deferred_nodup,
    fun x hx => absurd hx List.not_mem_nil, List.nodup_nil, ?_, fun hs => ?_, fun hs => ?_⟩
  · exact ⟨(h.serving i hi).1, List.not_mem_nil, (h.serving i hi).2.2⟩
  · show ((q.live + evt.held + 0 : Nat) : Int) ≤ q.inflight - 1
    simp only [SubmitPc.entered] at hin
    omega
  · cases hs
  · cases hs

theorem add {i frames : Nat} {left : List Xfer} (h : Inv q lost (.add i frames left) evt) :
    Inv (q.add frames) lost (.enter left) evt := by
  have hc : q.queued + frames + q.of evt.unadded = q.total + q.of evt.unsubtracted + lost := h.counted
  exact ⟨hc, h.unadded, h.serving, h.deferred, h.deferred_nodup, h.todo, h.todo_nodup, h.inflight, h.stopping, h.settled⟩

theorem wait (h : Inv q lost .wait evt) (hin : q.inflight = 0) : Inv q lost .join evt := by
  have hle := h.inflight
  rw [hin] at hle
  refine h.moveControl rfl rfl rfl h.stopping fun _ => ?_
  omega

/-- Nothing is owned and no callback holds a transfer, so what is freed counts for nothing. -/
theorem free (h : Inv q lost .free evt) : Inv { q with deferred := [], queued := 0 } 0 (.returned false) evt := by
  obtain ⟨hlive, hheld⟩ := h.settled rfl
  have hzero := Queue.total_eq_zero hlive
  have hsub : evt.unsubtracted = none := by
    cases evt <;> first | rfl | cases hheld
  have hadd : evt.unadded = none := by
    cases he : evt.unadded with
    | none => rfl
    | some i =>
      have := Queue.live_pos (h.unadded i he) rfl
      omega
  refine ⟨?_, h.unadded, fun i hi => ?_, fun i hi => absurd hi List.not_mem_nil, List.nodup_nil, h.todo, h.todo_nodup,
    h.inflight, fun hs => ?_, fun hs => ?_⟩
  · rw [hsub, hadd]
    exact hzero.symm
  · exact ⟨(h.serving i hi).1, List.not_mem_nil, List.not_mem_nil⟩
  · cases hs
  · cases hs

/-! ### Whole steps -/

variable {w : Nat} {d : Driver w}

theorem isoStep {s : SubmitRace w} (h : Inv s.drv.queue s.lost s.ctl s.evt) (ok : Xfer → Bool)
    (hread : s.Unread (.callback ok)) :
    Inv (s.drv.isoStep ok s.evt).1.queue (s.lost + (s.taking - s.drv.pb.queuedOutFrames)) s.ctl
      (s.drv.isoStep ok s.evt).2 := by
  obtain ⟨d, ctl, evt, lost⟩ := s
  have hnone {n : Nat} {q : Queue} {pc : IsoPc} (h : Inv q lost ctl pc) : Inv q (lost + (0 - n)) ctl pc := by
    rw [Nat.zero_sub]
    exact h
  cases evt with
  | idle => exact hnone h
  | entry i =>
    show Inv (d.completeOut i).queue (lost + (d.outFrames i - d.pb.queuedOutFrames)) ctl (.check i)
    have he : (d.completeOut i).queue = d.queue.subtract (d.queue.frames i) := by
      rw [Driver.frames_queue]
      rfl
    rw [he, ← Driver.frames_queue]
    exact h.subtract
  | check i =>
    refine hnone ?_
    simp only [Driver.isoStep]
    split
    · exact h.move rfl rfl (fun _ hk => by cases hk) rfl
    split
    · exact h.move rfl rfl (fun _ hk => by cases hk) rfl
    · rw [Driver.creditOut_queue]
      exact h.move rfl rfl (fun _ hk => hk) rfl
  | fill i =>
    refine hnone ?_
    rcases d.isoStep_fill ok i with ⟨hpc, hq⟩ | ⟨implicit, lengths, hpc, hq⟩
    · rw [hpc, hq]
      exact h.move rfl rfl (fun _ hk => hk) rfl
    · rw [hpc, hq]
      have hr := h.refill (h.serving i rfl).1 (hread i List.mem_cons_self) rfl rfl lengths
      exact hr.move rfl rfl (fun _ hk => hk) rfl
  | defer i =>
    refine hnone ?_
    show Inv (d.deferTransfer i).queue lost ctl .idle
    rcases d.deferTransfer_queue i with he | he
    · rw [he]
      exact h.defer
    · rw [he]
      exact (h.retire rfl rfl rfl).halt
  | submit i implicit =>
    refine hnone ?_
    cases hok : ok (.out i)
    · simp only [Driver.isoStep, hok]
      exact h.move rfl rfl (fun _ hk => by cases hk) rfl
    · simp only [Driver.isoStep, hok]
      exact h.resubmit
  | count i implicit =>
    refine hnone ?_
    show Inv (d.queueSubmitted i implicit).queue lost ctl .idle
    rw [Driver.queueSubmitted_queue]
    exact h.count
  | retire => exact hnone (h.retire rfl rfl rfl)
  | fail => exact hnone (h.retire rfl rfl rfl).halt

theorem submitStep {s : SubmitRace w} (h : Inv s.drv.queue s.lost s.ctl s.evt) (ok : Xfer → Bool) :
    Inv (s.drv.submitStep ok s.evt s.ctl).1.queue (match s.ctl with | .free => 0 | _ => s.lost)
      (s.drv.submitStep ok s.evt s.ctl).2 s.evt := by
  obtain ⟨d, ctl, evt, lost⟩ := s
  cases ctl with
  | enter left =>
    cases left with
    | nil => exact h.moveControl rfl rfl rfl (fun hs => by cases hs) (fun hs => by cases hs)
    | cons x left => exact h.enter
  | submit x left =>
    cases hok : ok x
    · simp only [Driver.submitStep, hok]
      exact h.submitRefused
    · cases x with
      | out i =>
        simp only [Driver.submitStep, hok]
        refine h.submitFirst (.count i 0 0 left) rfl ?_ rfl rfl rfl
        exact Nat.zero_add _
      | feedback k =>
        simp only [Driver.submitStep, hok]
        exact h.submitFirst (.enter left) rfl rfl rfl rfl rfl
      | capture j =>
        simp only [Driver.submitStep, hok]
        exact h.submitFirst (.enter left) rfl rfl rfl rfl rfl
  | count i p frames left =>
    simp only [Driver.submitStep]
    split
    · rename_i hp
      refine h.moveControl ?_ rfl rfl (fun hs => by cases hs) (fun hs => by cases hs)
      show _ + (((d.transfers i).lengths.drop (p + 1)).map (· / d.stride)).sum =
        frames + (((d.transfers i).lengths.drop p).map (· / d.stride)).sum
      rw [List.drop_eq_getElem_cons hp, List.map_cons, List.sum_cons, List.getD_eq_getElem _ _ hp, Nat.add_assoc]
    · rename_i hp
      refine h.moveControl ?_ rfl rfl (fun hs => by cases hs) (fun hs => by cases hs)
      show frames = frames + (((d.transfers i).lengths.drop p).map (· / d.stride)).sum
      rw [List.drop_of_length_le (Nat.le_of_not_lt hp)]
      rfl
  | add i frames left => exact h.add
  | stop => exact h.halt.moveControl rfl rfl rfl (fun _ => rfl) (fun hs => by cases hs)
  | wait =>
    simp only [Driver.submitStep]
    split
    · rename_i hin
      exact h.wait hin
    · exact h.moveControl rfl rfl rfl (fun hs => by cases hs) (fun hs => by cases hs)
  | join =>
    cases evt with
    | idle => exact h.moveControl rfl rfl rfl h.stopping h.settled
    | _ => exact h
  | free => exact h.free
  | returned b => exact h

theorem submitPendingImplicitTransfers (h : Inv d.queue lost ctl .idle) (hrun : d.stopRequested = false)
    (hread : ∀ i ∈ d.pending, ctl.reading ≠ some i) (ok : Xfer → Bool) :
    Inv (d.submitPendingImplicitTransfers ok).queue lost ctl .idle := by
  refine Driver.submitPending_rule ok
    (P := fun d rest => d.stopRequested = false ∧ (∀ i ∈ rest, ctl.reading ≠ some i) ∧
      Inv { d.queue with deferred := rest } lost ctl .idle)
    (Q := fun d rest => Inv { d.queue with deferred := rest } lost ctl .idle)
    (fun _ h => h.2.2) (fun _ _ _ _ h _ => h.2.2) ?_ ?_ d d.pending ⟨hrun, hread, h⟩
  · rintro d i rest ⟨-, hread, h⟩ _ _
    obtain ⟨lengths, he⟩ := d.takeAndRefill_queue i
    have hr := h.refill (h.deferred i List.mem_cons_self).1 (hread i List.mem_cons_self) rfl rfl lengths
    have hq : ((d.takeAndRefill i).submitPrepared i false).failOut.queue = (d.takeAndRefill i).queue.halt := by
      have hin : (d.takeAndRefill i).inflight + 1 - 1 = (d.takeAndRefill i).inflight := by omega
      simp only [Driver.queue, Queue.halt, Driver.submitPrepared, Driver.failOut, Driver.retireOut,
        Driver.markTransportFailed, Driver.submit, Usb.submit, hin]
      rfl
    rw [hq, he]
    exact hr.halt
  · rintro d i rest ⟨hrun, hread, h⟩ _ _
    obtain ⟨lengths, he⟩ := d.takeAndRefill_queue i
    have hr := h.refill (h.deferred i List.mem_cons_self).1 (hread i List.mem_cons_self) rfl rfl lengths
    refine ⟨hrun, fun k hk => hread k (List.mem_cons_of_mem _ hk), ?_⟩
    have hq : ((d.takeAndRefill i).submitPrepared i true).queue = (d.queue.refill i lengths).enter.submit (.out i) := by
      rw [← he]
      rfl
    rw [Driver.queueSubmitted_queue, hq]
    exact hr.releaseDeferred hrun

theorem onFeedback {k : Nat} (h : Inv d.queue lost ctl .idle) (hk : .feedback k ∈ d.usb.owned) (x : Transfer)
    (ok : Xfer → Bool) : Inv ((d.release (.feedback k)).onFeedback k x ok).queue lost ctl .idle := by
  have hretire := h.retireFeedback hk
  refine Driver.onFeedback_rule (P := fun d' => Inv d'.queue lost ctl .idle) hretire hretire.halt (fun _ _ => ?_)
    (fun _ _ => ?_)
  · rw [Driver.submit_queue, if_pos rfl, Driver.noteFeedback_queue]
    show Inv ((d.queue.giveBack (.feedback k)).submit (.feedback k)) lost ctl .idle
    rw [Queue.submit_giveBack hk]
    exact h
  · show Inv ((d.release (.feedback k)).noteFeedback x).queue.retire.halt lost ctl .idle
    rw [Driver.noteFeedback_queue]
    exact hretire.halt

theorem onCapture {j : Nat} (h : Inv d.queue lost ctl .idle) (hj : .capture j ∈ d.usb.owned)
    (hread : ∀ i ∈ d.pending, ctl.reading ≠ some i) (x : Transfer) (ok : Xfer → Bool) :
    Inv ((d.release (.capture j)).onCapture j x ok).queue lost ctl .idle := by
  have hgive : Inv (d.release (.capture j)).queue lost ctl .idle := h.giveBackOther (fun _ => by simp)
  have htodo : .capture j ∉ ctl.todo := fun hmem => h.todo _ hmem hj
  have hpending (hacc : (d.release (.capture j)).accepts x = true) :
      Inv (((d.release (.capture j)).receiveCapture x).submitPendingImplicitTransfers ok).queue lost ctl .idle :=
    submitPendingImplicitTransfers (d := (d.release (.capture j)).receiveCapture x) hgive
      (Driver.accepts_flags hacc).2 hread ok
  refine Driver.onCapture_rule (P := fun d' => Inv d'.queue lost ctl .idle) (fun _ => hgive) (fun _ => hgive.halt)
    (fun hacc => ?_) (fun hacc _ => ?_) (fun hacc _ => ?_)
  · rw [Driver.retireCapture_queue, Driver.wakeCapture_queue]
    exact hpending hacc
  · rw [Driver.submit_queue, if_pos rfl, Driver.wakeCapture_queue]
    exact (hpending hacc).submitCapture htodo
  · rw [Driver.failCapture_queue, Driver.submit_queue, if_neg Bool.false_ne_true, Driver.wakeCapture_queue]
    exact (hpending hacc).halt

/-- The steps of the driver that are not callbacks. -/
theorem call {a : DriverAct} (h : Inv d.queue lost ctl evt) (ha : a.completes = none) :
    Inv (d.step a).queue lost ctl evt := by
  have hside {p : Playback w} (hp : p.eventSide = d.pb.eventSide) :
      Inv ({ d with pb := p } : Driver w).queue lost ctl evt := by
    have hqueue : ({ d with pb := p } : Driver w).queue = d.queue := Driver.queue_congr hp rfl rfl rfl rfl rfl
    rw [hqueue]
    exact h
  cases a with
  | outDone _ _ _ _ => cases ha
  | feedbackDone _ _ _ => cases ha
  | captureDone _ _ _ => cases ha
  | requestStop => exact h.halt
  | writePcm data frames => exact hside (Playback.writePcm_eventSide data frames)
  | submitQuantum accepting policy frames packed charge => exact hside (Playback.submitQuantum_eventSide _ _ _ _ _ _)
  | takePlaybackCredit frames => exact hside (Playback.takePlaybackCredit_eventSide frames)
  | chargePlaybackCredit frames => exact hside (Playback.chargePlaybackCredit_eventSide frames)
  | setPolicy _ _ _ _ => exact hside rfl
  | _ => exact h

theorem step {s : SubmitRace w} (h : Inv s.drv.queue s.lost s.ctl s.evt) (a : SubmitRaceAct) (ha : s.Unread a) :
    Inv (s.step a).drv.queue (s.step a).lost (s.step a).ctl (s.step a).evt := by
  cases a with
  | control ok => exact h.submitStep ok
  | callback ok => exact h.isoStep ok ha
  | outDone i status results =>
    obtain ⟨d, ctl, evt, lost⟩ := s
    cases evt with
    | idle =>
      simp only [SubmitRace.step]
      split
      · rename_i hi
        rw [Driver.deliverOut_queue]
        exact h.giveBack hi
      · exact h
    | _ => exact h
  | other a =>
    obtain ⟨d, ctl, evt, lost⟩ := s
    simp only [SubmitRace.step]
    split
    swap
    · exact h
    rename_i hadm
    cases a with
    | outDone _ _ _ _ => cases evt <;> cases hadm
    | feedbackDone k x ok =>
      cases evt with
      | idle =>
        simp only [Driver.step]
        split
        · rename_i hk
          exact h.onFeedback hk x ok
        · exact h
      | _ => cases hadm
    | captureDone j x ok =>
      cases evt with
      | idle =>
        simp only [Driver.step]
        split
        · rename_i hj
          exact h.onCapture hj ha x ok
        · exact h
      | _ => cases hadm
    | _ => exact h.call rfl

end Inv

end SubmitRace

/-! ### From the start of the loop -/

/-- Nothing of the playback side is submitted, and nothing counted. -/
structure Driver.Unsent {w : Nat} (d : Driver w) : Prop where
  queued : d.pb.queuedOutFrames = 0
  pending : d.pending = []
  owned : ∀ x ∈ d.usb.owned, x.isPlayback = false
  inflight : d.inflight = 0

namespace Driver

variable {w : Nat} {d : Driver w}

/-- From the session reset until `startPlayback`. -/
theorem Idle.unsent (h : d.Idle) : d.Unsent := by
  refine ⟨h.queued, h.pending, h.captures, h.rotation.inflight.trans ?_⟩
  have hnone : d.rotation.playbackOwned = ∅ := by
    refine Finset.filter_eq_empty_iff.2 fun x hx => ?_
    rw [h.captures x hx]
    exact Bool.false_ne_true
  rw [hnone]
  rfl

/-- After a `stopIsoPump` that has freed the transfers. -/
theorem unsent_of_stopIsoPump {L : Finset Nat} (hL : L.card ≤ kMaxTransferCount) (h : d.rotation.Ok L)
    {served : List DriverAct} (hdone : (d.stopIsoPump served).2 = true) : (d.stopIsoPump served).1.Unsent := by
  have hstop : ({ d with stopRequested := true } : Driver w).rotation.Ok L :=
    ⟨⟨h.pending_nodup, h.pending_free, h.pending_mem, h.owned_mem, fun _ => rfl⟩, h.inflight, h.captureInflight⟩
  have hserved := run_invariant (I := fun d' : Driver w => d'.rotation.Ok L) (fun _ a h => step_ok hL h a) hstop served
  unfold stopIsoPump at hdone ⊢
  dsimp only at hdone ⊢
  split at hdone
  · cases hdone
  rename_i hin
  rw [if_neg hin]
  rw [not_not] at hin
  refine ⟨rfl, rfl, fun x hx => ?_, hin⟩
  have hcard : (0 : Int) = _ := hin.symm.trans hserved.inflight
  have hnone := Finset.card_eq_zero.1 (Int.ofNat_eq_zero.1 hcard.symm)
  have := Finset.filter_eq_empty_iff.1 hnone hx
  simpa using this

theorem primeAll_queue (is : List Nat) :
    ∃ lengths, (is.foldl primeOut d).queue = { d.queue with lengths := lengths } := by
  induction is generalizing d with
  | nil => exact ⟨_, rfl⟩
  | cons i is ih =>
    obtain ⟨lengths, he⟩ := ih (d := d.primeOut i)
    obtain ⟨lengths', he'⟩ := d.primeOut_queue i
    refine ⟨lengths, ?_⟩
    rw [List.foldl_cons, he, he']
    rfl

end Driver

namespace SubmitRace

variable {w : Nat}

theorem Inv.begin_ {d : Driver w} (h : d.Unsent) :
    Inv (begin_ d).drv.queue 0 (begin_ d).ctl (begin_ d).evt := by
  obtain ⟨lengths, he⟩ := Driver.primeAll_queue (d := d) (List.range d.outCount)
  have hnone : ∀ x, x.isPlayback = true → x ∉ d.usb.owned := fun x hx hmem => by
    rw [h.owned x hmem] at hx
    cases hx
  have hlive : d.queue.live = 0 := by
    refine Finset.card_eq_zero.2 (Finset.filter_eq_empty_iff.2 fun x hx => ?_)
    rw [h.owned x hx]
    exact Bool.false_ne_true
  have htotal : Queue.total { d.queue with lengths := lengths } = 0 := Queue.total_eq_zero hlive
  show Inv ((List.range d.outCount).foldl Driver.primeOut d).queue 0 (.enter d.initialXfers) .idle
  rw [he]
  refine ⟨?_, fun i hi => ?_, fun i hi => ?_, fun i hi => ?_, ?_, fun x hx => ?_, Driver.initialXfers_nodup, ?_,
    fun hs => ?_, fun hs => ?_⟩
  · rw [htotal]
    exact h.queued
  · cases hi
  · cases hi
  · exact absurd (h.pending ▸ hi : i ∈ []) List.not_mem_nil
  · show d.pending.Nodup
    rw [h.pending]
    exact List.nodup_nil
  · exact hnone x (Driver.isPlayback_of_initialXfers hx)
  · show ((d.queue.live + 0 + 0 : Nat) : Int) ≤ d.inflight
    rw [hlive, h.inflight]
    exact Int.le_refl _
  · cases hs
  · cases hs

/-- Neither overtakes the control thread: no completion is subtracted before the frames it takes are counted, and
no transfer is refilled while its descriptors are read for the addition. -/
def InOrder (s : SubmitRace w) (a : SubmitRaceAct) : Prop := s.Unread a ∧ s.Covered a

instance (s : SubmitRace w) (a : SubmitRaceAct) : Decidable (s.Unread a) :=
  inferInstanceAs (Decidable (∀ i ∈ s.refills a, s.ctl.reading ≠ some i))

instance (s : SubmitRace w) : (a : SubmitRaceAct) → Decidable (s.Covered a)
  | .callback _ => inferInstanceAs (Decidable (s.taking ≤ s.drv.pb.queuedOutFrames))
  | .control _ | .outDone _ _ _ | .other _ => isTrue trivial

instance (s : SubmitRace w) (a : SubmitRaceAct) : Decidable (s.InOrder a) :=
  inferInstanceAs (Decidable (s.Unread a ∧ s.Covered a))

/-- At rest the count is off by what the subtractions have lost. -/
theorem Inv.atRest {s : SubmitRace w} (h : Inv s.drv.queue s.lost s.ctl s.evt) {b : Bool} (hctl : s.ctl = .returned b)
    (hevt : s.evt = .idle) :
    s.drv.pb.queuedOutFrames = ∑ x ∈ s.drv.usb.owned, s.drv.xferFrames x + s.lost := by
  have hc := h.counted
  rw [hctl, hevt] at hc
  have hframes : s.drv.queue.xferFrames = s.drv.xferFrames := by
    funext x
    cases x with
    | out i => exact Driver.frames_queue i
    | _ => rfl
  rw [Queue.total, hframes] at hc
  exact hc

theorem lost_step {s : SubmitRace w} (h : s.lost = 0) {a : SubmitRaceAct} (ha : s.Covered a) : (s.step a).lost = 0 := by
  obtain ⟨d, ctl, evt, lost⟩ := s
  cases a with
  | control ok => cases ctl <;> first | exact h | rfl
  | callback ok =>
    exact Nat.add_eq_zero_iff.2 ⟨h, Nat.sub_eq_zero_of_le ha⟩
  | outDone i status results =>
    simp only [step]
    split
    · split <;> exact h
    · exact h
  | other a =>
    simp only [step]
    split <;> exact h

end SubmitRace

/-- The submission loop against the completions, in any order. When the loop has returned and no callback runs, the
count is the frames libusb owns plus what subtractions have lost, as long as no transfer is refilled while the
control thread reads its descriptors. So it is exactly the frames libusb owns in every run in which, besides, no
completion is subtracted before the frames it takes are counted. -/
theorem queued_counts_owned {w : Nat} (d : Driver w) (hd : d.Unsent) (as : List SubmitRaceAct) (b : Bool) :
    let s := run SubmitRace.step (.begin_ d) as
    s.ctl = .returned b → s.evt = .idle →
    (Meets SubmitRace.step SubmitRace.Unread (.begin_ d) as →
      s.drv.pb.queuedOutFrames = ∑ x ∈ s.drv.usb.owned, s.drv.xferFrames x + s.lost) ∧
    (Meets SubmitRace.step SubmitRace.InOrder (.begin_ d) as →
      s.drv.pb.queuedOutFrames = ∑ x ∈ s.drv.usb.owned, s.drv.xferFrames x) := by
  intro s hctl hevt
  refine ⟨fun has => ?_, fun has => ?_⟩
  · have hinv := has.invariant (I := fun s => SubmitRace.Inv s.drv.queue s.lost s.ctl s.evt)
      (fun s a ha h => h.step a ha) (SubmitRace.Inv.begin_ hd)
    exact hinv.atRest hctl hevt
  · have hinv := has.invariant (I := fun s => SubmitRace.Inv s.drv.queue s.lost s.ctl s.evt ∧ s.lost = 0)
      (fun s a ha h => ⟨h.1.step a ha.1, SubmitRace.lost_step h.2 ha.2⟩) ⟨SubmitRace.Inv.begin_ hd, rfl⟩
    have hrest := hinv.1.atRest hctl hevt
    rw [hinv.2] at hrest
    exact hrest

/-- A stereo full-duplex session of two OUT transfers of two frames, six frames written, right before
`submitIsoPump` enters its loop. -/
def twoTransfers : Option (Driver 64) :=
  let z : RingSize 64 := .smallest
  let f : StreamFormat := { sampleRateHz := 2000, bytesPerSample := 2, channels := 2, bInterval := 4 }
  let d : Driver 64 :=
    { pb := { ring := Ring.assign z, playbackTargetFrames := 2, writeHeadroomFrames := 8 }
      cap := { ring := Ring.assign z }, userspaceBufferConfig := { transferCount := 2, packetsPerTransfer := 1 }
      geometry := { transferCount := 2 } }
  (((d.start f).resetCapture f).startCapturePump 12 fun _ => true).bind fun d₁ =>
    (d₁.startIsoPump 12 true).map fun d₂ => run Driver.step d₂ [.writePcm [] 6]

/-- The first transfer completes between its submit and the addition of its frames: the subtraction finds nothing
counted, and both its resubmission and the late addition count it. The loop returns with six frames counted where
libusb owns four. -/
theorem early_completion_counts_twice :
    ∃ d ∈ twoTransfers, d.Unsent ∧ ∃ as : List SubmitRaceAct,
      let s := run SubmitRace.step (.begin_ d) as
      s.ctl = .returned true ∧ s.evt = .idle ∧
      s.drv.pb.queuedOutFrames = 6 ∧ ∑ x ∈ s.drv.usb.owned, s.drv.xferFrames x = 4 := by
  let ok : Xfer → Bool := fun _ => true
  let as : List SubmitRaceAct :=
    [.control ok, .control ok, .outDone 0 .completed []] ++ List.replicate 5 (.callback ok) ++
      List.replicate 9 (.control ok)
  obtain ⟨d, hd⟩ : ∃ d, twoTransfers = some d := Option.isSome_iff_exists.1 (by decide)
  have hget : d = twoTransfers.get (by decide) := by simp [hd]
  subst hget
  exact ⟨_, hd, ⟨by decide, by decide, by decide, by decide⟩, as, by decide, by decide, by decide, by decide⟩

/-- The same session with the completion after the addition: the loop returns with four frames counted. -/
theorem queued_counts_owned_two :
    ∃ d ∈ twoTransfers, d.Unsent ∧ ∃ as : List SubmitRaceAct,
      let s := run SubmitRace.step (.begin_ d) as
      s.ctl = .returned true ∧ s.evt = .idle ∧
      s.drv.pb.queuedOutFrames = 4 ∧ ∑ x ∈ s.drv.usb.owned, s.drv.xferFrames x = 4 := by
  let ok : Xfer → Bool := fun _ => true
  let as : List SubmitRaceAct :=
    List.replicate 5 (.control ok) ++ [.outDone 0 .completed []] ++ List.replicate 5 (.callback ok) ++
      List.replicate 6 (.control ok)
  obtain ⟨d, hd⟩ : ∃ d, twoTransfers = some d := Option.isSome_iff_exists.1 (by decide)
  have hget : d = twoTransfers.get (by decide) := by simp [hd]
  subst hget
  have hun : (twoTransfers.get (by decide)).Unsent := ⟨by decide, by decide, by decide, by decide⟩
  have h := (queued_counts_owned _ hun as true (by decide) (by decide)).2 (by decide)
  exact ⟨_, hd, hun, as, by decide, by decide, by decide, h.symm.trans (by decide)⟩

end UacDriver

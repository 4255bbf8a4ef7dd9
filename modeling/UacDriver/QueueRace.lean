import UacDriver.Lifecycle
import UacDriver.LedgerStart

/-!
# Counting the submitted frames against completions

`submitIsoPump` submits each initial transfer and only then adds its frames to `queuedOutFrames_`, while the event
thread already runs the completions of what has been submitted. `SubmitPc` is the place of the control thread in
the submission loop and in the `stopIsoPump` that follows a refused submit; `IsoPc` is the place of the event thread
in `onIso`, split at the subtraction, the checks, the refill, the submit and the addition. Run without interruption
the steps of either thread are the functions of `Driver`.

`Queue` is what the count is about: the part of the driver that the two counters are read against.
-/

namespace UacDriver

open Runs

/-- Who holds which transfer, the descriptor lengths, the two counters and the stop flag. -/
structure Queue where
  owned : Finset Xfer
  deferred : List Nat
  lengths : Nat → List Nat
  stride : Nat
  queued : Nat
  inflight : Int
  stop : Bool

namespace Queue

variable (q : Queue)

def frames (i : Nat) : Nat := ((q.lengths i).map (· / q.stride)).sum

def xferFrames : Xfer → Nat
  | .out i => q.frames i
  | _ => 0

def total : Nat := ∑ x ∈ q.owned, q.xferFrames x

def live : Nat := (q.owned.filter fun x => x.isPlayback).card

def giveBack (x : Xfer) : Queue := { q with owned := q.owned.erase x }

def subtract (n : Nat) : Queue := { q with queued := q.queued - n }

def add (n : Nat) : Queue := { q with queued := q.queued + n }

def refill (i : Nat) (lengths : List Nat) : Queue := { q with lengths := Function.update q.lengths i lengths }

def submit (x : Xfer) : Queue := { q with owned := insert x q.owned }

def enter : Queue := { q with inflight := q.inflight + 1 }

def retire : Queue := { q with inflight := q.inflight - 1 }

def defer (i : Nat) : Queue := { q.retire with deferred := q.deferred ++ [i] }

def halt : Queue := { q with stop := true }

variable {q}

theorem total_giveBack {x : Xfer} (hx : x ∈ q.owned) : (q.giveBack x).total + q.xferFrames x = q.total :=
  Finset.sum_erase_add _ _ hx

theorem total_submit {x : Xfer} (hx : x ∉ q.owned) : (q.submit x).total = q.total + q.xferFrames x := by
  show ∑ y ∈ insert x q.owned, q.xferFrames y = _
  rw [Finset.sum_insert hx, Nat.add_comm]
  rfl

theorem submit_giveBack {x : Xfer} (hx : x ∈ q.owned) : (q.giveBack x).submit x = q := by
  simp only [submit, giveBack, Finset.insert_erase hx]

theorem frames_refill {i k : Nat} (hk : k ≠ i) (lengths : List Nat) : (q.refill i lengths).frames k = q.frames k := by
  simp only [frames, refill, Function.update_of_ne hk]

theorem total_refill {i : Nat} (hi : .out i ∉ q.owned) (lengths : List Nat) :
    (q.refill i lengths).total = q.total := by
  refine Finset.sum_congr rfl fun x hx => ?_
  cases x with
  | out k =>
    have hk : k ≠ i := by
      rintro rfl
      exact hi hx
    exact frames_refill hk lengths
  | _ => rfl

theorem live_pos {x : Xfer} (hx : x ∈ q.owned) (hp : x.isPlayback = true) : 0 < q.live :=
  Finset.card_pos.2 ⟨x, Finset.mem_filter.2 ⟨hx, hp⟩⟩

theorem live_giveBack {x : Xfer} (hx : x ∈ q.owned) (hp : x.isPlayback = true) : (q.giveBack x).live + 1 = q.live := by
  have hmem : x ∈ q.owned.filter fun x => x.isPlayback := Finset.mem_filter.2 ⟨hx, hp⟩
  show ((q.owned.erase x).filter fun x => x.isPlayback).card + 1 = _
  rw [Finset.filter_erase, Finset.card_erase_of_mem hmem]
  exact Nat.sub_add_cancel (live_pos hx hp)

theorem live_giveBack_le (x : Xfer) : (q.giveBack x).live ≤ q.live :=
  Finset.card_le_card (Finset.filter_subset_filter _ (Finset.erase_subset ..))

theorem live_submit_le (x : Xfer) : (q.submit x).live ≤ q.live + 1 := by
  show ((insert x q.owned).filter fun x => x.isPlayback).card ≤ _
  rw [Finset.filter_insert]
  split
  · exact Finset.card_insert_le ..
  · exact Nat.le_succ _

theorem live_submit_capture (j : Nat) : (q.submit (.capture j)).live = q.live := by
  show ((insert (.capture j) q.owned).filter fun x => x.isPlayback).card = _
  rw [Finset.filter_insert, if_neg (by simp [Xfer.isPlayback])]
  rfl

theorem total_eq_zero (h : q.live = 0) : q.total = 0 := by
  refine Finset.sum_eq_zero fun x hx => ?_
  cases x with
  | out i =>
    have := live_pos hx rfl
    omega
  | _ => rfl

end Queue

/-- The place of the event thread in `onIso`. -/
inductive IsoPc where
  | idle
  /-- At `subtractQueued`. -/
  | entry (i : Nat)
  /-- At the stop and status checks. -/
  | check (i : Nat)
  | fill (i : Nat)
  | defer (i : Nat)
  | submit (i : Nat) (implicit : Bool)
  /-- At the addition after a submit. -/
  | count (i : Nat) (implicit : Bool)
  | retire
  | fail
  deriving DecidableEq

/-- The place of the control thread in the submission loop of `submitIsoPump`. -/
inductive SubmitPc where
  /-- At the increment of `inflight_` for the first of the transfers left. -/
  | enter (left : List Xfer)
  | submit (x : Xfer) (left : List Xfer)
  /-- At descriptor `p` of the transfer just submitted, with the frames of those before. -/
  | count (i p frames : Nat) (left : List Xfer)
  | add (i frames : Nat) (left : List Xfer)
  /-- `stopIsoPump` after a refused submit: at the stop flag, at the wait, at the join, at the free. -/
  | stop
  | wait
  | join
  | free
  | returned (started : Bool)
  deriving DecidableEq

namespace Driver

variable {w : Nat} (d : Driver w)

def queue : Queue :=
  { owned := d.usb.owned, deferred := d.pending, lengths := fun i => (d.transfers i).lengths, stride := d.stride
    queued := d.pb.queuedOutFrames, inflight := d.inflight, stop := d.stopRequested }

/-- The next step of `onIso`; `ok` is what libusb answers to a submit. The descriptors of the transfer that is
given back are the event thread's own until it submits again, so they are read with the subtraction. -/
def isoStep (ok : Xfer → Bool) : IsoPc → Driver w × IsoPc
  | .idle => (d, .idle)
  | .entry i => (d.completeOut i, .check i)
  | .check i =>
    if d.retires i then (d, .retire)
    else if (d.transfers i).status = .noDevice then (d, .fail)
    else (d.creditOut i, .fill i)
  | .fill i =>
    if d.implicitMode then
      if d.pending ≠ [] then (d, .defer i)
      else if (d.prepareImplicitTransfer i).2 then ((d.prepareImplicitTransfer i).1, .submit i true)
      else ((d.prepareImplicitTransfer i).1, .defer i)
    else (d.refillScheduled i, .submit i false)
  | .defer i => (d.deferTransfer i, .idle)
  | .submit i implicit =>
    (({ d with playbackWake := d.playbackWake.signalIfWaiting } : Driver w).submit (.out i) (ok (.out i))
      (d.transfers i).lengths, if ok (.out i) then .count i implicit else .fail)
  | .count i implicit => (d.queueSubmitted i implicit, .idle)
  | .retire => (d.retireOut, .idle)
  | .fail => (d.failOut, .idle)

/-- The next step of the control thread; the join waits for a running callback. -/
def submitStep (ok : Xfer → Bool) (evt : IsoPc) : SubmitPc → Driver w × SubmitPc
  | .enter [] => ({ d with pb := { d.pb with playbackStarted := true }, streaming := true }, .returned true)
  | .enter (x :: left) => ({ d with inflight := d.inflight + 1 }, .submit x left)
  | .submit x left =>
    if ok x then
      match x with
      | .out i => (d.submit x true (d.transfers i).lengths, .count i 0 0 left)
      | _ => (d.submit x true [d.feedbackBytes], .enter left)
    else ((d.submit x false []).retireOut, .stop)
  | .count i p frames left =>
    if p < (d.transfers i).lengths.length then
      (d, .count i (p + 1) (frames + (d.transfers i).lengths.getD p 0 / d.stride) left)
    else (d, .add i frames left)
  | .add _ frames left =>
    ({ d with pb := { d.pb with queuedOutFrames := d.pb.queuedOutFrames + frames } }, .enter left)
  | .stop => ({ d with stopRequested := true }, .wait)
  | .wait => (d, if d.inflight = 0 then .join else .returned false)
  | .join => (d, match evt with | .idle => .free | _ => .join)
  | .free => (d.freeOut, .returned false)
  | .returned b => (d, .returned b)

end Driver

structure SubmitRace (w : Nat) where
  drv : Driver w
  ctl : SubmitPc
  evt : IsoPc := .idle
  /-- History: by how much the subtractions since the last free stopped short at zero. -/
  lost : Nat := 0

inductive SubmitRaceAct where
  | control (ok : Xfer → Bool)
  /-- libusb gives OUT transfer `i` back with its results, and `onIso` starts. -/
  | outDone (i : Nat) (status : TransferStatus) (results : List TransferStatus)
  | callback (ok : Xfer → Bool)
  /-- Any other step of the driver; the feedback and capture callbacks run to their end. -/
  | other (a : DriverAct)

namespace SubmitRace

variable {w : Nat}

/-- One callback at a time; the completions of OUT transfers are the acts `outDone` and `callback`. -/
def admits (s : SubmitRace w) (a : DriverAct) : Bool :=
  match a.completes, s.evt with
  | none, _ | some (.feedback _), .idle | some (.capture _), .idle => true
  | _, _ => false

/-- The frames that the next step of the event thread takes off the count. -/
def taking (s : SubmitRace w) : Nat :=
  match s.evt with
  | .entry i => s.drv.outFrames i
  | _ => 0

def step (s : SubmitRace w) : SubmitRaceAct → SubmitRace w
  | .control ok =>
    { s with
      drv := (s.drv.submitStep ok s.evt s.ctl).1
      ctl := (s.drv.submitStep ok s.evt s.ctl).2
      lost := match s.ctl with | .free => 0 | _ => s.lost }
  | .outDone i status results =>
    match s.evt with
    | .idle => if .out i ∈ s.drv.usb.owned then { s with drv := s.drv.deliverOut i status results, evt := .entry i } else s
    | _ => s
  | .callback ok =>
    { s with
      drv := (s.drv.isoStep ok s.evt).1, evt := (s.drv.isoStep ok s.evt).2
      lost := s.lost + (s.taking - s.drv.pb.queuedOutFrames) }
  | .other a => if s.admits a then { s with drv := s.drv.step a } else s

/-- The control thread right before the submission loop: all initial payloads are filled. -/
def begin_ (d : Driver w) : SubmitRace w :=
  { drv := (List.range d.outCount).foldl Driver.primeOut d, ctl := .enter d.initialXfers }

end SubmitRace

/-! ### Without interruption -/

namespace Driver

variable {w : Nat} {d : Driver w}

/-- Five steps without interruption are `onIso`. -/
theorem isoStep_onIso (i : Nat) (ok : Xfer → Bool) :
    (fun s : Driver w × IsoPc => s.1.isoStep ok s.2)^[5] (d, .entry i) = (d.onIso i ok, .idle) := by
  simp only [Function.iterate_succ, Function.iterate_zero, Function.comp_apply, id_eq, isoStep]
  have hretires : (d.completeOut i).retires i = d.retires i := rfl
  unfold onIso
  by_cases hr : d.retires i = true
  · simp only [hretires, hr, if_true]
  simp only [hretires, hr, if_false, Bool.false_eq_true]
  by_cases hn : (d.transfers i).status = .noDevice
  · have hn' : ((d.completeOut i).transfers i).status = .noDevice := hn
    simp only [hn, hn', if_true]
  have hn' : ((d.completeOut i).transfers i).status ≠ .noDevice := hn
  simp only [hn, hn', if_false]
  by_cases hm : ((d.completeOut i).creditOut i).implicitMode = true
  · simp only [hm, if_true]
    by_cases hp : ((d.completeOut i).creditOut i).pending ≠ []
    · simp only [hp, if_true, ne_eq, not_false_eq_true]
    · simp only [hp, if_false]
      cases hc : (((d.completeOut i).creditOut i).prepareImplicitTransfer i).2
      · simp only [Bool.false_eq_true, if_false]
      · simp only [if_true, resubmitOut]
        cases ok (.out i) <;> rfl
  · simp only [hm, if_false, resubmitOut, Bool.false_eq_true]
    cases ok (.out i) <;> rfl

/-- The control thread alone, no callback running. -/
def submitAlone (ok : Xfer → Bool) (s : Driver w × SubmitPc) : Driver w × SubmitPc := s.1.submitStep ok .idle s.2

theorem submitAlone_count (ok : Xfer → Bool) (i frames : Nat) (left : List Xfer) {n p : Nat}
    (hn : p + n = (d.transfers i).lengths.length) :
    (submitAlone ok)^[n + 1] (d, .count i p frames left) =
      (d, .add i (frames + (((d.transfers i).lengths.drop p).map (· / d.stride)).sum) left) := by
  induction n generalizing p frames with
  | zero =>
    have hp : ¬ p < (d.transfers i).lengths.length := by omega
    rw [List.drop_of_length_le (Nat.le_of_not_lt hp)]
    simp only [Nat.zero_add, Function.iterate_one, submitAlone, submitStep, hp, if_false]
    rfl
  | succ n ih =>
    have hp : p < (d.transfers i).lengths.length := by omega
    have hstep : submitAlone ok (d, .count i p frames left) =
        (d, .count i (p + 1) (frames + (d.transfers i).lengths.getD p 0 / d.stride) left) := by
      simp only [submitAlone, submitStep, hp, if_true]
    rw [Function.iterate_succ_apply, hstep, ih _ (by omega), List.drop_eq_getElem_cons hp, List.map_cons, List.sum_cons,
      List.getD_eq_getElem _ _ hp, Nat.add_assoc]

/-- One turn of the loop is `submitFirst`. -/
theorem submitAlone_first {ok : Xfer → Bool} {x : Xfer} (left : List Xfer) {d' : Driver w} {bytes : Nat}
    (hx : x.isPlayback = true) (hbytes : d.feedbackBytes = bytes)
    (he : d.submitFirst ok (fun _ => [bytes]) x = some d') :
    ∃ n, (submitAlone ok)^[n] (d, .enter (x :: left)) = (d', .enter left) := by
  unfold submitFirst at he
  split at he
  swap
  · cases he
  rename_i hok
  cases x with
  | out i =>
    cases he
    let d₁ := ({ d with inflight := d.inflight + 1 } : Driver w).submit (.out i) true (d.transfers i).lengths
    have htwo : (submitAlone ok)^[2] (d, .enter (.out i :: left)) = (d₁, .count i 0 0 left) := by
      simp [submitAlone, submitStep, hok, d₁]
    have hcount := submitAlone_count (d := d₁) ok i 0 left (Nat.zero_add _)
    have hframes : 0 + (((d₁.transfers i).lengths.drop 0).map (· / d₁.stride)).sum = d₁.outFrames i := by
      rw [outFrames, Transfer.descriptorFrames_eq, Nat.zero_add, List.drop_zero]
    refine ⟨1 + ((d₁.transfers i).lengths.length + 1) + 2, ?_⟩
    rw [Function.iterate_add_apply, htwo, Function.iterate_add_apply, hcount, hframes]
    rfl
  | feedback k =>
    cases he
    refine ⟨2, ?_⟩
    simp only [Function.iterate_succ, Function.iterate_zero, Function.comp_apply, id_eq, submitAlone, submitStep, hok,
      if_true, ← hbytes]
    rfl
  | capture j => cases hx

theorem submitFirst_feedbackBytes {ok : Xfer → Bool} {lengths : Xfer → List Nat} {x : Xfer} {d' : Driver w}
    (he : d.submitFirst ok lengths x = some d') : d'.feedbackBytes = d.feedbackBytes := by
  unfold submitFirst at he
  split at he
  · cases x <;> cases he <;> rfl
  · cases he

theorem primeAll_feedbackBytes (is : List Nat) : (is.foldl primeOut d).feedbackBytes = d.feedbackBytes := by
  induction is generalizing d with
  | nil => rfl
  | cons i is ih =>
    rw [List.foldl_cons, ih]
    have hside : (d.primeOut i).pb.eventSide = d.pb.eventSide := Playback.primeTransfer_eventSide ..
    have hformat : (d.primeOut i).pb.format = d.pb.format := congrArg (fun e => e.1) hside
    simp only [feedbackBytes, hformat]

/-- The loop alone is the loop of `submitIsoPump`. -/
theorem submitAlone_submitIsoPump {ok : Xfer → Bool} {d' : Driver w} (he : d.submitIsoPump ok = some d') :
    ∃ n, (submitAlone ok)^[n] ((SubmitRace.begin_ d).drv, (SubmitRace.begin_ d).ctl) = (d', .returned true) := by
  unfold submitIsoPump at he
  obtain ⟨-, he⟩ := Option.ite_none_left_eq_some.1 he
  obtain ⟨-, he⟩ := Option.ite_none_left_eq_some.1 he
  obtain ⟨d₁, hsubmit, rfl⟩ := Option.map_eq_some_iff.1 he
  have hbytes : (SubmitRace.begin_ d).drv.feedbackBytes = d.feedbackBytes := primeAll_feedbackBytes _
  have hloop := foldlM_rule (P := fun xs (d' : Driver w) => d'.feedbackBytes = d.feedbackBytes ∧
      (∀ x ∈ xs, x.isPlayback = true) ∧
      ∃ n, (submitAlone ok)^[n] ((SubmitRace.begin_ d).drv, (SubmitRace.begin_ d).ctl) = (d', .enter xs))
    (fun x xs d₂ d₃ hP hd => ?_) ⟨hbytes, fun _ => isPlayback_of_initialXfers, 0, rfl⟩ hsubmit
  · obtain ⟨-, -, n, hn⟩ := hloop
    refine ⟨1 + n, ?_⟩
    rw [Function.iterate_add_apply, hn]
    rfl
  · obtain ⟨hfb, hplay, n, hn⟩ := hP
    obtain ⟨m, hm⟩ := submitAlone_first xs (hplay x List.mem_cons_self) hfb hd
    refine ⟨(submitFirst_feedbackBytes hd).trans hfb, fun y hy => hplay y (List.mem_cons_of_mem _ hy), m + n, ?_⟩
    rw [Function.iterate_add_apply, hn, hm]

end Driver

/-! ### What a step does to the queue -/

namespace Driver

variable {w : Nat} {d : Driver w}

theorem frames_queue (i : Nat) : d.queue.frames i = d.outFrames i := (Transfer.descriptorFrames_eq _ _).symm

theorem queue_congr {d' : Driver w} (hpb : d'.pb.eventSide = d.pb.eventSide) (htransfers : d'.transfers = d.transfers)
    (husb : d'.usb.owned = d.usb.owned) (hpending : d'.pending = d.pending) (hinflight : d'.inflight = d.inflight)
    (hstop : d'.stopRequested = d.stopRequested) : d'.queue = d.queue := by
  have hstride : d'.stride = d.stride := congrArg (fun e => e.1.frameStride) hpb
  have hqueued : d'.pb.queuedOutFrames = d.pb.queuedOutFrames := congrArg (fun e => e.2.1) hpb
  simp only [queue, htransfers, husb, hpending, hinflight, hstop, hstride, hqueued]

theorem creditOut_queue (i : Nat) : (d.creditOut i).queue = d.queue := by
  unfold creditOut queue
  dsimp only [stride]
  split <;> rfl

/-- A refill moves the ring and rewrites the descriptors of its own transfer. -/
theorem refill_queue {d' : Driver w} {i : Nat} {x : Transfer} (hpb : d'.pb.eventSide = d.pb.eventSide)
    (htransfers : d'.transfers = Function.update d.transfers i x) (husb : d'.usb = d.usb)
    (hpending : d'.pending = d.pending) (hinflight : d'.inflight = d.inflight)
    (hstop : d'.stopRequested = d.stopRequested) : d'.queue = d.queue.refill i x.lengths := by
  have hlengths : (fun k => (d'.transfers k).lengths) =
      Function.update (fun k => (d.transfers k).lengths) i x.lengths := by
    funext k
    rw [htransfers]
    rcases eq_or_ne k i with rfl | hk
    · simp
    · simp [hk]
  have hstride : d'.stride = d.stride := congrArg (fun e => e.1.frameStride) hpb
  have hqueued : d'.pb.queuedOutFrames = d.pb.queuedOutFrames := congrArg (fun e => e.2.1) hpb
  simp only [queue, Queue.refill, hlengths, husb, hpending, hinflight, hstop, hstride, hqueued]

theorem takeAndRefill_queue (i : Nat) : ∃ lengths, (d.takeAndRefill i).queue = d.queue.refill i lengths :=
  ⟨_, refill_queue (refill_eventSide ..) rfl rfl rfl rfl rfl⟩

theorem refillScheduled_queue (i : Nat) : ∃ lengths, (d.refillScheduled i).queue = d.queue.refill i lengths :=
  ⟨_, refill_queue (refill_eventSide ..) rfl rfl rfl rfl rfl⟩

theorem primeOut_queue (i : Nat) : ∃ lengths, (d.primeOut i).queue = d.queue.refill i lengths :=
  ⟨_, refill_queue (Playback.primeTransfer_eventSide ..) rfl rfl rfl rfl rfl⟩

theorem queueSubmitted_queue (i : Nat) (implicit : Bool) :
    (d.queueSubmitted i implicit).queue = d.queue.add (d.queue.frames i) := by
  rw [frames_queue]
  rfl

theorem deferTransfer_queue (i : Nat) :
    (d.deferTransfer i).queue = d.queue.defer i ∨ (d.deferTransfer i).queue = d.queue.retire.halt := by
  unfold deferTransfer
  split
  · exact .inl rfl
  · exact .inr rfl

theorem deliverOut_queue (i : Nat) (status : TransferStatus) (results : List TransferStatus) :
    (d.deliverOut i status results).queue = d.queue.giveBack (.out i) := by
  have hlengths : (fun k => ((d.deliverOut i status results).transfers k).lengths) =
      fun k => (d.transfers k).lengths := by
    funext k
    rcases eq_or_ne k i with rfl | hk
    · simp [deliverOut]
    · simp [deliverOut, hk]
  simp only [queue, Queue.giveBack, hlengths]
  rfl

theorem retireCapture_queue : d.retireCapture.queue = d.queue := rfl

theorem failCapture_queue : d.failCapture.queue = d.queue.halt := rfl

theorem wakeCapture_queue : d.wakeCapture.queue = d.queue := rfl

theorem submit_queue (x : Xfer) (ok : Bool) (lengths : List Nat) :
    (d.submit x ok lengths).queue = if ok then d.queue.submit x else d.queue := by
  cases ok <;> rfl

theorem noteFeedback_queue (x : Transfer) : (d.noteFeedback x).queue = d.queue := by
  unfold noteFeedback
  split
  · split
    · unfold acceptFeedback
      dsimp only
      split <;> rfl
    · rfl
  · rfl

/-- The refill step: a deferral leaves the queue alone, a refill rewrites the descriptors. -/
theorem isoStep_fill (ok : Xfer → Bool) (i : Nat) :
    ((d.isoStep ok (.fill i)).2 = .defer i ∧ (d.isoStep ok (.fill i)).1.queue = d.queue) ∨
    ∃ implicit lengths, (d.isoStep ok (.fill i)).2 = .submit i implicit ∧
      (d.isoStep ok (.fill i)).1.queue = d.queue.refill i lengths := by
  unfold isoStep
  dsimp only
  by_cases hm : d.implicitMode = true
  · rw [if_pos hm]
    by_cases hp : d.pending ≠ []
    · rw [if_pos hp]
      exact .inl ⟨rfl, rfl⟩
    rw [if_neg hp]
    by_cases hc : d.canPrepare i = true
    · rw [prepareImplicitTransfer_of_canPrepare hc, if_pos rfl]
      obtain ⟨lengths, he⟩ := d.takeAndRefill_queue i
      exact .inr ⟨true, lengths, rfl, he⟩
    · obtain ⟨stats, he⟩ := prepareImplicitTransfer_of_not (Bool.not_eq_true _ ▸ hc)
      rw [he, if_neg Bool.false_ne_true]
      exact .inl ⟨rfl, rfl⟩
  · rw [if_neg hm]
    obtain ⟨lengths, he⟩ := d.refillScheduled_queue i
    exact .inr ⟨false, lengths, rfl, he⟩

end Driver

end UacDriver

import UacDriver.Rotation

/-!
# Stopping against running callbacks

`stop` runs on a control thread while the event thread may be anywhere in a callback. `Pc` is the place in a
callback, split at its flag checks, at the updates of `inflight_` and at the submits; `Ctl` is the place in
`requestStop` and `stopIsoPump`. libusb runs one callback at a time, on the event thread or, inside the wait loop,
on the control thread. Run without interruption, the steps of a callback are the callback of `Driver`.

What keeps a transfer from being freed under libusb is that `inflight_` is at least the number of playback
transfers libusb owns plus those the running callback still has to give back or submit. The one step that raises
it without a completion is that of `submitPendingImplicitTransfers`, and nothing keeps it from coming after the
last check of `stopIsoPump`.
-/

namespace UacDriver

open Runs

/-- The place in a callback, with its locals. -/
inductive Pc where
  | idle
  /-- `onIso`: at the stop check, at the implicit-feedback check, at the deferral, at the submit. -/
  | iso (i : Nat)
  | isoFill (i : Nat)
  | isoDefer (i : Nat)
  | isoSubmit (i : Nat) (implicit : Bool)
  | feedback (k : Nat) (t : Transfer)
  | feedbackSubmit (k : Nat) (t : Transfer)
  /-- `onCapture`: at the two flag checks, at the packet loop. -/
  | capture (j : Nat) (t : Transfer)
  | captureStop (j : Nat) (t : Transfer)
  | captureLoop (j : Nat) (t : Transfer)
  /-- `submitPendingImplicitTransfers`: at the loop head with the transfers left, at the increment, at the submit. -/
  | pending (j : Nat) (t : Transfer) (left : List Nat)
  | pendingEnter (j : Nat) (t : Transfer) (i : Nat) (left : List Nat)
  | pendingSubmit (j : Nat) (t : Transfer) (i : Nat) (left : List Nat)
  | pendingDone (j : Nat) (t : Transfer) (left : List Nat)
  | captureWake (j : Nat) (t : Transfer)
  | captureSubmit (j : Nat) (t : Transfer)
  | captureFail
  /-- At the decrement of `inflight_` or `captureInflight_`. -/
  | retire
  | retireCapture
  | fail (next : Pc)
  /-- At `markTransportFailed`. -/
  | mark (next : Pc)

namespace Driver

variable {w : Nat} (d : Driver w)

/-- The next step of a callback; `ok` is what libusb answers to a submit. -/
def callbackStep (ok : Xfer → Bool) : Pc → Driver w × Pc
  | .idle => (d, .idle)
  | .iso i =>
    if d.retires i then (d.completeOut i, .retire)
    else if (d.transfers i).status = .noDevice then (d.completeOut i, .fail .idle)
    else ((d.completeOut i).creditOut i, .isoFill i)
  | .isoFill i =>
    if d.implicitMode then
      if d.pending ≠ [] then (d, .isoDefer i)
      else if (d.prepareImplicitTransfer i).2 then ((d.prepareImplicitTransfer i).1, .isoSubmit i true)
      else ((d.prepareImplicitTransfer i).1, .isoDefer i)
    else (d.refillScheduled i, .isoSubmit i false)
  | .isoDefer i => (d.deferTransfer i, .idle)
  | .isoSubmit i implicit =>
    let d' := ({ d with playbackWake := d.playbackWake.signalIfWaiting } : Driver w).submit (.out i) (ok (.out i))
      (d.transfers i).lengths
    if ok (.out i) then (d'.queueSubmitted i implicit, .idle) else (d', .fail .idle)
  | .feedback k t =>
    if t.status = .cancelled ∨ d.stopRequested then (d, .retire)
    else if t.status = .noDevice then (d, .fail .idle)
    else (d.noteFeedback t, .feedbackSubmit k t)
  | .feedbackSubmit k t =>
    (d.submit (.feedback k) (ok (.feedback k)) t.lengths, if ok (.feedback k) then .idle else .fail .idle)
  | .capture j t => (d, if d.cap.captureActive then .captureStop j t else .retireCapture)
  | .captureStop j t =>
    (d, if t.status = .cancelled ∨ d.stopRequested then .retireCapture
      else if t.status = .noDevice then .captureFail else .captureLoop j t)
  | .captureLoop j t => (d.receiveCapture t, .pending j t d.pending)
  | .pending j t [] => (d, .pendingDone j t [])
  | .pending j t (i :: left) =>
    ((d.prepareImplicitTransfer i).1,
      if (d.prepareImplicitTransfer i).2 then .pendingEnter j t i left else .pendingDone j t (i :: left))
  | .pendingEnter j t i left => ({ d with inflight := d.inflight + 1 }, .pendingSubmit j t i left)
  | .pendingSubmit j t i left =>
    let d' := d.submit (.out i) (ok (.out i)) (d.transfers i).lengths
    if ok (.out i) then (d'.queueSubmitted i true, .pending j t left)
    else (d', .fail (.pendingDone j t (i :: left)))
  | .pendingDone j t left => ({ d with pending := left }, .captureWake j t)
  | .captureWake j t => (d.wakeCapture, if d.transportFailed then .retireCapture else .captureSubmit j t)
  | .captureSubmit j t =>
    (d.submit (.capture j) (ok (.capture j)) t.lengths, if ok (.capture j) then .idle else .captureFail)
  | .captureFail =>
    ({ d.retireCapture with
      stats := { d.stats with captureTransferErrors := d.stats.captureTransferErrors + 1 } }, .mark .idle)
  | .retire => (d.retireOut, .idle)
  | .retireCapture => (d.retireCapture, .idle)
  | .fail next =>
    ({ d.retireOut with
      stats := { d.stats with playbackTransferErrors := d.stats.playbackTransferErrors + 1 } }, .mark next)
  | .mark next => (d.markTransportFailed, next)

/-- A callback run without interruption from `pc` to its end. -/
def Completes (ok : Xfer → Bool) (st st' : Driver w × Pc) : Prop :=
  ∃ n, (fun s : Driver w × Pc => s.1.callbackStep ok s.2)^[n] st = st'

namespace Completes

variable {d} {ok : Xfer → Bool} {st st' st'' : Driver w × Pc}

theorem refl (st : Driver w × Pc) : Completes ok st st := ⟨0, rfl⟩

theorem step (h : Completes ok (st.1.callbackStep ok st.2) st') : Completes ok st st' := by
  obtain ⟨n, hn⟩ := h
  exact ⟨n + 1, hn⟩

theorem trans (h : Completes ok st st') (h' : Completes ok st' st'') : Completes ok st st'' := by
  obtain ⟨n, rfl⟩ := h
  obtain ⟨m, rfl⟩ := h'
  exact ⟨m + n, Function.iterate_add_apply ..⟩

theorem fail (next : Pc) : Completes ok (d, .fail next) (d.failOut, next) := step (step (refl _))

theorem onIso (i : Nat) : Completes ok (d, .iso i) (d.onIso i ok, .idle) := by
  have hsubmit (x : Driver w) (implicit : Bool) :
      Completes ok (x, .isoSubmit i implicit) (x.resubmitOut i implicit (ok (.out i)), .idle) := by
    refine step ?_
    dsimp only [callbackStep, resubmitOut]
    split
    · exact refl _
    · exact fail _
  have hdefer (x : Driver w) : Completes ok (x, .isoDefer i) (x.deferTransfer i, .idle) := step (refl _)
  refine step ?_
  dsimp only [callbackStep, Driver.onIso]
  split
  · exact step (refl _)
  split
  · exact fail _
  refine step ?_
  dsimp only [callbackStep]
  split
  · split
    · exact hdefer _
    · split
      · exact hsubmit _ true
      · exact hdefer _
  · exact hsubmit _ false

theorem onFeedback (k : Nat) (t : Transfer) : Completes ok (d, .feedback k t) (d.onFeedback k t ok, .idle) := by
  refine step ?_
  dsimp only [callbackStep, Driver.onFeedback]
  split
  · exact step (refl _)
  split
  · exact fail _
  refine step ?_
  dsimp only [callbackStep]
  split
  · exact refl _
  · exact fail _

theorem pending (j : Nat) (t : Transfer) (left : List Nat) :
    Completes ok (d, .pending j t left)
      ((submitPending ok left d).1, .pendingDone j t (submitPending ok left d).2) := by
  induction left generalizing d with
  | nil => exact step (refl _)
  | cons i left ih =>
    refine step ?_
    dsimp only [callbackStep]
    rw [submitPending]
    split
    · refine step (step ?_)
      dsimp only [callbackStep, submitPrepared]
      split
      · exact ih
      · exact fail _
    · exact refl _

theorem captureWake (j : Nat) (t : Transfer) :
    Completes ok (d, .captureWake j t)
      (if d.transportFailed then d.wakeCapture.retireCapture
        else if ok (.capture j) then d.wakeCapture.submit (.capture j) (ok (.capture j)) t.lengths
        else (d.wakeCapture.submit (.capture j) (ok (.capture j)) t.lengths).failCapture, .idle) := by
  refine step ?_
  dsimp only [callbackStep]
  split
  · exact step (refl _)
  refine step ?_
  dsimp only [callbackStep]
  split
  · exact refl _
  · exact step (step (refl _))

theorem onCapture (j : Nat) (t : Transfer) : Completes ok (d, .capture j t) (d.onCapture j t ok, .idle) := by
  refine step ?_
  dsimp only [callbackStep, Driver.onCapture]
  by_cases ha : d.cap.captureActive = true
  swap
  · rw [if_neg ha, if_pos (by simpa using ha)]
    exact step (refl _)
  rw [if_pos ha, if_neg (by simpa using ha)]
  refine step ?_
  dsimp only [callbackStep]
  split
  · exact step (refl _)
  split
  · exact step (step (refl _))
  exact step ((pending j t _).trans (step (captureWake j t)))

end Completes

/-! ### The in-flight count over a callback -/

def live (d : Driver w) : Nat := (d.usb.owned.filter fun x => x.isPlayback).card

end Driver

/-- The playback transfers a callback at this place has counted in `inflight_` and neither given back nor
submitted. -/
def Pc.held : Pc → Nat
  | iso _ | isoFill _ | isoDefer _ | isoSubmit _ _ | feedback _ _ | feedbackSubmit _ _ | retire => 1
  | pendingSubmit _ _ _ _ => 1
  | fail next => next.held + 1
  | mark next => next.held
  | _ => 0

/-- At the increment of `inflight_` in `submitPendingImplicitTransfers`. -/
def Pc.entersPending : Pc → Bool
  | pendingEnter _ _ _ _ => true
  | _ => false

namespace Driver

variable {w : Nat} {d : Driver w} {ok : Xfer → Bool}

theorem live_submit_le (x : Xfer) (b : Bool) (lengths : List Nat) :
    (d.submit x b lengths).live ≤ d.live + if b && x.isPlayback then 1 else 0 := by
  cases b
  · exact le_rfl
  show ((insert x d.usb.owned).filter fun x => x.isPlayback).card ≤ _
  rw [Finset.filter_insert]
  split
  · rename_i h
    rw [h]; exact Finset.card_insert_le ..
  · exact Nat.le_add_right ..

theorem prepareImplicitTransfer_rotation (i : Nat) : (d.prepareImplicitTransfer i).1.rotation = d.rotation := by
  cases hc : d.canPrepare i
  · obtain ⟨stats, he⟩ := prepareImplicitTransfer_of_not hc
    rw [he]; rfl
  · rw [prepareImplicitTransfer_of_canPrepare hc]; rfl

theorem live_of_rotation {d' : Driver w} (h : d'.rotation = d.rotation) : d'.live = d.live :=
  congrArg (fun r => r.playbackOwned.card) h

theorem inflight_of_rotation {d' : Driver w} (h : d'.rotation = d.rotation) : d'.inflight = d.inflight :=
  congrArg Rotation.inflight h

theorem deferTransfer_count (i : Nat) :
    (d.deferTransfer i).live = d.live ∧ (d.deferTransfer i).inflight = d.inflight - 1 := by
  unfold deferTransfer; split <;> exact ⟨rfl, rfl⟩

/-- What one step of a callback does to the count: it moves transfers between libusb and the callback, gives one
back, or counts one in. -/
theorem callbackStep_count (d : Driver w) (ok : Xfer → Bool) (pc : Pc) :
    let r := d.callbackStep ok pc
    (r.1.inflight = d.inflight ∧ r.1.live + r.2.held ≤ d.live + pc.held) ∨
    (r.1.inflight = d.inflight - 1 ∧ r.1.live + r.2.held + 1 ≤ d.live + pc.held) ∨
    (pc.entersPending = true ∧ r.1.inflight = d.inflight + 1 ∧ r.1.live + r.2.held ≤ d.live + pc.held + 1) := by
  have hrot (i : Nat) := prepareImplicitTransfer_rotation (d := d) i
  have hlive (i : Nat) := live_of_rotation (hrot i)
  have hin (i : Nat) := inflight_of_rotation (hrot i)
  cases pc with
  | iso i =>
    dsimp only [callbackStep]
    split
    · exact .inl ⟨rfl, le_rfl⟩
    split <;> exact .inl ⟨rfl, le_rfl⟩
  | isoFill i =>
    dsimp only [callbackStep]
    split
    · split
      · exact .inl ⟨rfl, le_rfl⟩
      split <;> exact .inl ⟨hin i, (congrArg (· + 1) (hlive i)).le⟩
    · exact .inl ⟨rfl, le_rfl⟩
  | isoDefer i =>
    obtain ⟨h₁, h₂⟩ := deferTransfer_count (d := d) i
    exact .inr (.inl ⟨h₂, (congrArg (· + 1) h₁).le⟩)
  | isoSubmit i implicit =>
    dsimp only [callbackStep]
    have hle := live_submit_le (d := ({ d with playbackWake := d.playbackWake.signalIfWaiting } : Driver w)) (.out i)
      (ok (.out i)) (d.transfers i).lengths
    cases hok : ok (.out i)
    · exact .inl ⟨rfl, le_rfl⟩
    · rw [hok] at hle
      exact .inl ⟨rfl, hle⟩
  | feedback k t =>
    have hnote := noteFeedback_rotation (d := d) t
    dsimp only [callbackStep]
    split
    · exact .inl ⟨rfl, le_rfl⟩
    split
    · exact .inl ⟨rfl, le_rfl⟩
    · exact .inl ⟨inflight_of_rotation hnote, (congrArg (· + 1) (live_of_rotation hnote)).le⟩
  | feedbackSubmit k t =>
    dsimp only [callbackStep]
    have hle := live_submit_le (d := d) (.feedback k) (ok (.feedback k)) t.lengths
    cases hok : ok (.feedback k)
    · exact .inl ⟨rfl, le_rfl⟩
    · rw [hok] at hle
      exact .inl ⟨rfl, hle⟩
  | pending j t left =>
    cases left with
    | nil => exact .inl ⟨rfl, le_rfl⟩
    | cons i left =>
      refine .inl ⟨hin i, ?_⟩
      dsimp only [callbackStep]
      rw [hlive]
      split <;> exact le_rfl
  | pendingEnter j t i left => exact .inr (.inr ⟨rfl, rfl, le_rfl⟩)
  | pendingSubmit j t i left =>
    dsimp only [callbackStep]
    have hle := live_submit_le (d := d) (.out i) (ok (.out i)) (d.transfers i).lengths
    cases hok : ok (.out i)
    · exact .inl ⟨rfl, le_rfl⟩
    · rw [hok] at hle
      exact .inl ⟨rfl, hle⟩
  | capture j t =>
    refine .inl ⟨rfl, ?_⟩
    dsimp only [callbackStep]
    split <;> exact le_rfl
  | captureStop j t =>
    refine .inl ⟨rfl, ?_⟩
    dsimp only [callbackStep]
    split
    · exact le_rfl
    split <;> exact le_rfl
  | captureWake j t =>
    refine .inl ⟨rfl, ?_⟩
    dsimp only [callbackStep]
    split <;> exact le_rfl
  | captureSubmit j t =>
    have hle := live_submit_le (d := d) (.capture j) (ok (.capture j)) t.lengths
    refine .inl ⟨rfl, ?_⟩
    dsimp only [callbackStep]
    rw [Xfer.isPlayback, Bool.and_false] at hle
    split <;> exact hle
  | retire => exact .inr (.inl ⟨rfl, le_rfl⟩)
  | fail next => exact .inr (.inl ⟨rfl, le_rfl⟩)
  | _ => exact .inl ⟨rfl, le_rfl⟩

end Driver

/-! ### The two threads -/

/-- The place in `stop`: the stores of `requestStop`, then `stopIsoPump`. -/
inductive Ctl where
  | idle
  | storeCapture
  | storeStreaming
  | storeStop
  | cancel (left : List Xfer)
  /-- The wait loop: at its load of `inflight_`, or inside `libusb_handle_events_timeout`. -/
  | wait
  | handle
  | check
  | join
  | free
  | done
  /-- Returned false: the teardown is deferred. -/
  | deferred
  deriving DecidableEq

structure Teardown (w : Nat) where
  drv : Driver w
  pc : Pc := .idle
  /-- The callback at `pc` runs on the control thread. -/
  onControl : Bool := false
  eventRunning : Bool := true
  ctl : Ctl := .idle

inductive TeardownAct where
  | outDone (onControl : Bool) (i : Nat) (status : TransferStatus) (results : List TransferStatus)
  | feedbackDone (onControl : Bool) (k : Nat) (t : Transfer)
  | captureDone (onControl : Bool) (j : Nat) (t : Transfer)
  | callback (ok : Xfer → Bool)
  /-- The next step of `stop`; `expired` says whether the 500 ms of the wait loop have passed. -/
  | control (expired : Bool)
  | eventExit
  | client (a : DriverAct)

namespace Teardown

variable {w : Nat}

def callbackIdle (s : Teardown w) : Bool := match s.pc with
  | .idle => true
  | _ => false

/-- libusb completes `x` on one of the threads that handle events, one callback at a time. -/
def serves (s : Teardown w) (onControl : Bool) (x : Xfer) : Bool :=
  s.callbackIdle && decide (x ∈ s.drv.usb.owned) && if onControl then decide (s.ctl = .handle) else s.eventRunning

def freed (d : Driver w) : Driver w :=
  { d with
    pending := [], outCount := 0, feedbackCount := 0
    pb := { d.pb with queuedOutFrames := 0, playbackStarted := false } }

/-- The next step of `stop`. A cancel makes libusb complete a transfer it owns, which it does in any case, and is
rejected for one it does not own. -/
def control (s : Teardown w) (expired : Bool) : Teardown w :=
  match s.ctl with
  | .idle => { s with drv := { s.drv with stopRequested := true }, ctl := .storeCapture }
  | .storeCapture =>
    { s with drv := { s.drv with cap := { s.drv.cap with captureActive := false } }, ctl := .storeStreaming }
  | .storeStreaming =>
    { s with
      drv := { s.drv with
        streaming := false, captureWake := s.drv.captureWake.signal, playbackWake := s.drv.playbackWake.signal }
      ctl := .storeStop }
  | .storeStop =>
    { s with
      drv := { s.drv with stopRequested := true }
      ctl := .cancel ((List.range s.drv.outCount).map .out ++ (List.range s.drv.feedbackCount).map .feedback) }
  | .cancel [] => { s with ctl := .wait }
  | .cancel (_ :: left) => { s with ctl := .cancel left }
  | .wait => { s with ctl := if s.drv.inflight ≠ 0 ∧ !expired then .handle else .check }
  | .handle => { s with ctl := .wait }
  | .check => { s with ctl := if s.drv.inflight ≠ 0 then .deferred else .join }
  | .join => if s.eventRunning then s else { s with ctl := .free }
  | .free => { s with drv := freed s.drv, ctl := .done }
  | .done | .deferred => s

def step (s : Teardown w) : TeardownAct → Teardown w
  | .outDone onControl i status results =>
    if s.serves onControl (.out i) then { s with drv := s.drv.deliverOut i status results, pc := .iso i, onControl }
    else s
  | .feedbackDone onControl k t =>
    if s.serves onControl (.feedback k) then
      { s with drv := s.drv.release (.feedback k), pc := .feedback k t, onControl }
    else s
  | .captureDone onControl j t =>
    if s.serves onControl (.capture j) then { s with drv := s.drv.release (.capture j), pc := .capture j t, onControl }
    else s
  | .callback ok => { s with drv := (s.drv.callbackStep ok s.pc).1, pc := (s.drv.callbackStep ok s.pc).2 }
  | .control expired => if s.onControl && !s.callbackIdle then s else s.control expired
  | .eventExit =>
    if s.drv.stopRequested && (s.callbackIdle || s.onControl) then { s with eventRunning := false } else s
  | .client a => if a.completes = none then { s with drv := s.drv.step a } else s

/-- `stopIsoPump` has made its last check of `inflight_` and has not freed yet. -/
def checked (s : Teardown w) : Bool := match s.ctl with
  | .join | .free => true
  | _ => false

/-- A step that does not count a pending transfer in after the last check. -/
def Settled (s : Teardown w) : TeardownAct → Prop
  | .callback _ => s.pc.entersPending = true → s.checked = false
  | _ => True

instance (s : Teardown w) (a : TeardownAct) : Decidable (s.Settled a) := match a with
  | .callback _ => inferInstanceAs (Decidable (s.pc.entersPending = true → s.checked = false))
  | .outDone _ _ _ _ | .feedbackDone _ _ _ | .captureDone _ _ _ | .control _ | .eventExit | .client _ =>
    inferInstanceAs (Decidable True)

structure Inv (s : Teardown w) : Prop where
  count : (s.drv.live : Int) + s.pc.held ≤ s.drv.inflight
  checked : s.checked = true → s.drv.inflight = 0

theorem serves_owned {s : Teardown w} {onControl : Bool} {x : Xfer} (h : s.serves onControl x = true) :
    s.callbackIdle = true ∧ x ∈ s.drv.usb.owned := by
  simp only [serves, Bool.and_eq_true, decide_eq_true_eq] at h
  exact h.1

theorem held_of_idle {s : Teardown w} (h : s.callbackIdle = true) : s.pc.held = 0 := by
  unfold callbackIdle at h
  split at h
  · rename_i hpc; rw [hpc]; rfl
  · cases h

theorem release_live {d : Driver w} {x : Xfer} (hx : x ∈ d.usb.owned) :
    (d.release x).live + (if x.isPlayback then 1 else 0) ≤ d.live := by
  show ((d.usb.owned.erase x).filter fun x => x.isPlayback).card + _ ≤ (d.usb.owned.filter fun x => x.isPlayback).card
  rw [Finset.filter_erase]
  split
  · rename_i hp
    have hmem : x ∈ d.usb.owned.filter fun x => x.isPlayback := Finset.mem_filter.2 ⟨hx, hp⟩
    rw [Finset.card_erase_of_mem hmem]
    have := Finset.card_pos.2 ⟨x, hmem⟩
    omega
  · exact Finset.card_le_card (Finset.erase_subset ..)

theorem client_count {d : Driver w} {a : DriverAct} (ha : a.completes = none) :
    (d.step a).live = d.live ∧ (d.step a).inflight = d.inflight := by
  cases a with
  | outDone _ _ _ _ => cases ha
  | feedbackDone _ _ _ => cases ha
  | captureDone _ _ _ => cases ha
  | _ => exact ⟨rfl, rfl⟩

namespace Inv

variable {s : Teardown w}

theorem serve (h : s.Inv) {onControl : Bool} {x : Xfer} (hx : s.serves onControl x = true) {drv : Driver w} {pc : Pc}
    (hlive : drv.live = (s.drv.release x).live) (hin : drv.inflight = s.drv.inflight)
    (hheld : pc.held = if x.isPlayback then 1 else 0) : Inv { s with drv, pc, onControl } := by
  obtain ⟨hidle, howned⟩ := serves_owned hx
  have hrel := release_live howned
  have hcount := h.count
  rw [held_of_idle hidle] at hcount
  refine ⟨?_, fun hc => hin.trans (h.checked hc)⟩
  show (drv.live : Int) + pc.held ≤ drv.inflight
  rw [hlive, hin, hheld]
  split at hrel <;> split <;> simp_all <;> omega

theorem callback (h : s.Inv) {ok : Xfer → Bool} (hset : s.Settled (.callback ok)) : (s.step (.callback ok)).Inv := by
  have hcount := h.count
  have hchecked := h.checked
  refine ⟨?_, fun hc => ?_⟩
  · show ((s.drv.callbackStep ok s.pc).1.live : Int) + (s.drv.callbackStep ok s.pc).2.held ≤
      (s.drv.callbackStep ok s.pc).1.inflight
    rcases s.drv.callbackStep_count ok s.pc with ⟨h₁, h₂⟩ | ⟨h₁, h₂⟩ | ⟨-, h₁, h₂⟩ <;> omega
  · show (s.drv.callbackStep ok s.pc).1.inflight = 0
    have h0 := hchecked hc
    rcases s.drv.callbackStep_count ok s.pc with ⟨h₁, h₂⟩ | ⟨h₁, h₂⟩ | ⟨hp, -, -⟩
    · omega
    -- a transfer given back was counted
    · omega
    · have hno : s.checked = false := hset hp
      have hc' : s.checked = true := hc
      rw [hno] at hc'; cases hc'

theorem control (h : s.Inv) (expired : Bool) : (s.control expired).Inv := by
  unfold Teardown.control
  have hcount := h.count
  have hno {s' : Teardown w} (hl : s'.drv.live = s.drv.live) (hi : s'.drv.inflight = s.drv.inflight)
      (hp : s'.pc = s.pc) (hc : s'.checked = false) : s'.Inv := by
    refine ⟨by rw [hl, hi, hp]; exact hcount, fun hc' => ?_⟩
    rw [hc] at hc'; cases hc'
  split
  · exact hno rfl rfl rfl rfl
  · exact hno rfl rfl rfl rfl
  · exact hno rfl rfl rfl rfl
  · exact hno rfl rfl rfl rfl
  · exact hno rfl rfl rfl rfl
  · exact hno rfl rfl rfl rfl
  · refine hno rfl rfl rfl ?_
    by_cases hb : s.drv.inflight ≠ 0 ∧ (!expired) = true
    · rw [if_pos hb]; rfl
    · rw [if_neg hb]; rfl
  · exact hno rfl rfl rfl rfl
  · refine ⟨hcount, fun hc => ?_⟩
    by_cases hz : s.drv.inflight = 0
    · exact hz
    · simp [Teardown.checked, hz] at hc
  · rename_i hctl
    split
    · exact h
    · refine ⟨hcount, fun _ => h.checked ?_⟩
      simp [Teardown.checked, hctl]
  · exact hno rfl rfl rfl rfl
  · exact h
  · exact h

theorem step (h : s.Inv) (a : TeardownAct) (hset : s.Settled a) : (s.step a).Inv := by
  cases a with
  | outDone onControl i status results =>
    simp only [Teardown.step]
    split
    · rename_i hx; exact h.serve hx rfl rfl rfl
    · exact h
  | feedbackDone onControl k t =>
    simp only [Teardown.step]
    split
    · rename_i hx; exact h.serve hx rfl rfl rfl
    · exact h
  | captureDone onControl j t =>
    simp only [Teardown.step]
    split
    · rename_i hx; exact h.serve hx rfl rfl rfl
    · exact h
  | callback ok => exact h.callback hset
  | control expired =>
    simp only [Teardown.step]
    split
    · exact h
    · exact h.control expired
  | eventExit =>
    simp only [Teardown.step]
    split
    · exact ⟨h.count, h.checked⟩
    · exact h
  | client a =>
    simp only [Teardown.step]
    split
    · rename_i ha
      obtain ⟨h₁, h₂⟩ := client_count (d := s.drv) ha
      refine ⟨?_, fun hc => h₂.trans (h.checked hc)⟩
      show ((s.drv.step a).live : Int) + s.pc.held ≤ (s.drv.step a).inflight
      rw [h₁, h₂]; exact h.count
    · exact h

end Inv

end Teardown

/-- Over every interleaving of `stop` with the callbacks of a session in which no pending transfer is counted in after
the last check of `inflight_`, `stopIsoPump` frees the playback transfers only when libusb owns none of them. -/
theorem stop_frees_retired_transfers {w : Nat} (d : Driver w) (outs feedbacks captures : Nat) (as : List TeardownAct)
    (h : Meets Teardown.step Teardown.Settled { drv := d.submitted outs feedbacks captures } as) :
    let s := run Teardown.step { drv := d.submitted outs feedbacks captures } as
    s.ctl = .free → ∀ x ∈ s.drv.usb.owned, x.isPlayback = false := by
  intro s hfree x hx
  have h₀ : Teardown.Inv { drv := d.submitted outs feedbacks captures } :=
    ⟨(d.submitted_ok outs feedbacks captures).inflight.symm.le, nofun⟩
  have hs : s.Inv := h.invariant (I := Teardown.Inv) (fun s a hset hs => hs.step a hset) h₀
  have hzero : s.drv.inflight = 0 := hs.checked (by simp [Teardown.checked, hfree])
  have hcount := hs.count
  have hlive : s.drv.live = 0 := by omega
  by_contra hp
  have hmem : x ∈ s.drv.usb.owned.filter fun x => x.isPlayback := Finset.mem_filter.2 ⟨hx, by simpa using hp⟩
  rw [Finset.card_eq_zero.1 hlive] at hmem
  exact absurd hmem (Finset.notMem_empty x)

/-- Two OUT transfers cancelled and retired inside the wait loop. -/
theorem stop_frees_retired_transfers_cancelled :
    ∃ d : Driver 64, ∃ as : List TeardownAct,
      let s := run Teardown.step { drv := d.submitted 2 0 1 } as
      s.ctl = .free ∧ .capture 0 ∈ s.drv.usb.owned ∧ ∀ x ∈ s.drv.usb.owned, x.isPlayback = false := by
  let z : RingSize 64 := .smallest
  let d : Driver 64 := { pb := { ring := Ring.assign z }, cap := { ring := Ring.assign z, captureActive := true } }
  let control : TeardownAct := .control false
  let callback : TeardownAct := .callback fun _ => true
  let as : List TeardownAct :=
    List.replicate 8 control ++ [.outDone true 0 .cancelled [], callback, callback, control, control] ++
      [.outDone true 1 .cancelled [], callback, callback, control, control, control, .eventExit, control]
  have hmeets : Meets Teardown.step Teardown.Settled { drv := d.submitted 2 0 1 } as := by decide
  have hfree : (run Teardown.step { drv := d.submitted 2 0 1 } as).ctl = .free := by decide
  exact ⟨d, as, hfree, by decide, stop_frees_retired_transfers d 2 0 1 as hmeets hfree⟩

/-- Both OUT transfers are pending when a capture completion passes its stop check and prepares the first of them.
`stop` then runs up to the join: it finds `inflight_` at zero. The callback counts the transfer in, submits it
and returns, the event thread exits, and `stopIsoPump` frees what libusb owns. -/
theorem stop_frees_submitted_transfer :
    ∃ d : Driver 64, ∃ as : List TeardownAct,
      let s := run Teardown.step { drv := d.submitted 2 0 1 } as
      s.ctl = .free ∧ .out 1 ∈ s.drv.usb.owned ∧ (s.step (.control false)).ctl = .done ∧
      ¬ (s.ctl = .free → ∀ x ∈ s.drv.usb.owned, x.isPlayback = false) := by
  let z : RingSize 64 := .smallest
  let f : StreamFormat := { channels := 2, bytesPerSample := 2 }
  let d : Driver 64 :=
    { pb := { ring := Ring.assign z, format := f, playbackStarted := true }
      cap := { ring := Ring.assign z, captureActive := true, format := { f with implicitFeedback := true } }
      pacing := { maxFramesPerPacket := 3 }
      transfers := fun _ => { packets := [{ length := 8 }] } }
  let control : TeardownAct := .control false
  let callback : TeardownAct := .callback fun _ => true
  let packet : Transfer := { packets := [{ length := 12, actualLength := 8 }] }
  let as : List TeardownAct :=
    [.client (.writePcm [] 4), .outDone false 1 .completed [], callback, callback, callback] ++
      [.outDone false 0 .completed [], callback, callback, callback] ++
      [.captureDone false 0 packet, callback, callback, callback, callback] ++ List.replicate 9 control ++
      List.replicate 6 callback ++ [.eventExit, control]
  have hfree : (run Teardown.step { drv := d.submitted 2 0 1 } as).ctl = .free := by decide
  have howned : .out 1 ∈ (run Teardown.step { drv := d.submitted 2 0 1 } as).drv.usb.owned := by decide
  exact ⟨d, as, hfree, howned, by decide, fun h => absurd (h hfree _ howned) (by decide)⟩

end UacDriver

import UacDriver.Refill
import UacDriver.Capture
import Mathlib.Data.Finset.Card
import Mathlib.Data.Finset.Insert

/-!
# The driver and its libusb callbacks

`Driver` is the state the event thread works on: both rings with their ledgers, the layout FIFO, the OUT
transfers with the list of deferred ones, the flags, the two in-flight counters and the wake channels, and
libusb's side of the transfers. Each callback is a function of the driver, run to its end; what libusb
answers to each submit is an argument. Timing, histograms and the flight recorder are left out.

`onIso_rule`, `onFeedback_rule`, `onCapture_rule` and `submitPending_rule` say once what a callback can do.
Everything about callbacks is proved through them, so a property of the callbacks is a property of the few
primitives they are composed of.
-/

namespace UacDriver

open Circular

inductive Xfer where
  | out (i : Nat)
  | feedback (k : Nat)
  | capture (j : Nat)
  deriving DecidableEq

/-- Counted in `inflight_`; the others are counted in `captureInflight_`. -/
def Xfer.isPlayback : Xfer → Bool
  | out _ | feedback _ => true
  | capture _ => false

/-- One `libusb_submit_transfer` call, with the descriptor lengths it was made with. -/
structure SubmitCall where
  xfer : Xfer
  ok : Bool
  lengths : List Nat := []

/-- libusb's side: the transfers it owns and, as history, the calls made. -/
structure Usb where
  owned : Finset Xfer := ∅
  calls : List SubmitCall := []

/-- `libusb_submit_transfer`: a successful call hands the transfer to libusb. -/
def Usb.submit (u : Usb) (c : SubmitCall) : Usb :=
  { owned := if c.ok then insert c.xfer u.owned else u.owned, calls := u.calls ++ [c] }

/-- An eventfd with the number of threads registered on it; `writes` counts the eventfd writes. -/
structure WakeChannel where
  valid : Bool := true
  waiters : Nat := 0
  writes : Nat := 0

namespace WakeChannel

def signal (c : WakeChannel) : WakeChannel := if c.valid then { c with writes := c.writes + 1 } else c

def signalIfWaiting (c : WakeChannel) : WakeChannel := if c.valid ∧ 0 < c.waiters then c.signal else c

end WakeChannel

structure TransportStats where
  playbackTransferErrors : Nat := 0
  captureTransferErrors : Nat := 0
  deferredTransfers : Nat := 0
  deferredNoMetadata : Nat := 0
  deferredNoPcm : Nat := 0
  zeroRunwayEvents : Nat := 0
  implicitMetadataInvalid : Nat := 0

/-- Session constants set by the pumps and the buffer policy. -/
structure Geometry where
  transferCount : Nat := kDefaultNumTransfers
  packetIntervalUframes : Nat := 1
  graphQuantum : Nat := 0
  captureLimitFrames : Nat := 0
  playbackPacketsPerTransfer : Nat := 0
  exactInitialPacketFrames : Nat := 0
  capturePacketsPerTransfer : Nat := 0
  captureMaxFramesPerPacket : Nat := 0

structure Driver (w : Nat) where
  pb : Playback w
  cap : Capture w
  fifo : MetaFifo := {}
  pacing : Pacing := {}
  userspaceBufferConfig : UserspaceBufferConfig := {}
  geometry : Geometry := {}
  /-- `transfers_.size()` and `feedbackTransfers_.size()`. -/
  outCount : Nat := 0
  feedbackCount : Nat := 0
  /-- `transfers_`, by index. -/
  transfers : Nat → Transfer := fun _ => {}
  /-- `pendingImplicitTransfers_[0 .. pendingImplicitCount_)`. -/
  pending : List Nat := []
  implicitZeroRunwayActive : Bool := false
  inflight : Int := 0
  captureInflight : Int := 0
  stopRequested : Bool := false
  transportFailed : Bool := false
  streaming : Bool := false
  playbackWake : WakeChannel := {}
  captureWake : WakeChannel := {}
  stats : TransportStats := {}
  usb : Usb := {}
  /-- History: the FIFO indices taken by `prepareImplicitTransfer`. -/
  taken : List Nat := []

def Playback.drainPacket {w : Nat} (_packet bytes : Nat) (pb : Playback w) : Playback w × List UInt8 :=
  pb.drainRing bytes

/-- A refill moves the playback ring, the positions and the drain counters, nothing else. -/
theorem refill_eventSide {w : Nat} (stride : Nat) (plan : List Nat) (pb : Playback w) (x : Transfer) :
    (refill Playback.drainPacket stride 0 plan (pb, x)).1.eventSide = pb.eventSide :=
  refill_invariant (I := fun pb' : Playback w => pb'.eventSide = pb.eventSide) (fun _ _ _ h => h) _ _ _ rfl

namespace Driver

variable {w : Nat} (d : Driver w)

def stride : Nat := d.pb.stride

/-! ### Primitives -/

def markTransportFailed : Driver w :=
  { d with
    transportFailed := true, cap := { d.cap with captureActive := false }, streaming := false,
    stopRequested := true, captureWake := d.captureWake.signal, playbackWake := d.playbackWake.signal }

def requestStop : Driver w :=
  { d with
    stopRequested := true, cap := { d.cap with captureActive := false }, streaming := false,
    captureWake := d.captureWake.signal, playbackWake := d.playbackWake.signal }

def retireOut : Driver w := { d with inflight := d.inflight - 1 }

def retireCapture : Driver w := { d with captureInflight := d.captureInflight - 1 }

def failOut : Driver w :=
  markTransportFailed
    { d.retireOut with
      stats := { d.stats with playbackTransferErrors := d.stats.playbackTransferErrors + 1 } }

def failCapture : Driver w :=
  markTransportFailed
    { d.retireCapture with
      stats := { d.stats with captureTransferErrors := d.stats.captureTransferErrors + 1 } }

def submit (x : Xfer) (ok : Bool) (lengths : List Nat) : Driver w := { d with usb := d.usb.submit ⟨x, ok, lengths⟩ }

/-- `captureFormat_.implicitFeedback && format_.feedbackEndpointAddress == 0`. -/
def implicitFormat : Bool := d.cap.format.implicitFeedback && d.pb.format.feedbackEndpointAddress == 0

/-- The branch of `onIso` that sizes packets from the capture layout. -/
def implicitMode : Bool := d.cap.captureActive && d.implicitFormat

def outFrames (i : Nat) : Nat := (d.transfers i).descriptorFrames d.stride

/-- History: the OUT submissions that libusb accepted, with the lengths they were made with. -/
def outSubmits : List (Nat × List Nat) := d.usb.calls.filterMap fun c => match c.ok, c.xfer with
  | true, .out i => some (i, c.lengths)
  | _, _ => none

/-! ### Implicit feedback -/

/-- The layout `prepareImplicitTransfer` would take for transfer `i`. -/
def implicitPlan (i : Nat) : List Nat :=
  d.fifo.frameCounts (d.transfers i).numIsoPackets d.pacing.maxFramesPerPacket

def noMetadata (i : Nat) : Bool :=
  d.fifo.implicitWrite < d.fifo.implicitRead ||
    d.fifo.implicitWrite - d.fifo.implicitRead < (d.transfers i).numIsoPackets

def noPcm (i : Nat) : Bool := d.pb.bufferedFrames < (d.implicitPlan i).sum

def badCount (i : Nat) : Bool :=
  (d.transfers i).numIsoPackets = 0 || (d.transfers i).numIsoPackets > kMaxPacketsPerTransfer

def canPrepare (i : Nat) : Bool := !d.badCount i && !d.noMetadata i && !d.noPcm i

/-- `prepareImplicitTransfer` past its tests: take the layout, then refill. -/
def takeAndRefill (i : Nat) : Driver w :=
  let r := refill Playback.drainPacket d.stride 0 (d.implicitPlan i) (d.pb, d.transfers i)
  { d with
    fifo := d.fifo.take (d.transfers i).numIsoPackets
    taken := d.taken ++ List.range' d.fifo.implicitRead (d.transfers i).numIsoPackets
    pb := r.1
    transfers := Function.update d.transfers i r.2 }

def prepareImplicitTransfer (i : Nat) : Driver w × Bool :=
  if d.badCount i then (d, false)
  else if d.noMetadata i then
    ({ d with stats := { d.stats with deferredNoMetadata := d.stats.deferredNoMetadata + 1 } }, false)
  else if d.noPcm i then
    ({ d with stats := { d.stats with deferredNoPcm := d.stats.deferredNoPcm + 1 } }, false)
  else (d.takeAndRefill i, true)

def queueSubmitted (i : Nat) (implicit : Bool) : Driver w :=
  { d with
    pb := { d.pb with queuedOutFrames := d.pb.queuedOutFrames + d.outFrames i }
    implicitZeroRunwayActive := if implicit && 0 < d.outFrames i then false else d.implicitZeroRunwayActive }

/-- One prepared pending transfer: counted in flight, then submitted. -/
def submitPrepared (i : Nat) (ok : Bool) : Driver w :=
  ({ d with inflight := d.inflight + 1 } : Driver w).submit (.out i) ok (d.transfers i).lengths

/-- The loop of `submitPendingImplicitTransfers`: the state after it and the transfers still pending. -/
def submitPending (ok : Xfer → Bool) : List Nat → Driver w → Driver w × List Nat
  | [], d => (d, [])
  | i :: rest, d =>
    if (d.prepareImplicitTransfer i).2 then
      let d := (d.prepareImplicitTransfer i).1.submitPrepared i (ok (.out i))
      if ok (.out i) then submitPending ok rest (d.queueSubmitted i true)
      else (d.failOut, i :: rest)
    else ((d.prepareImplicitTransfer i).1, i :: rest)

def submitPendingImplicitTransfers (ok : Xfer → Bool) : Driver w :=
  let (d', rest) := submitPending ok d.pending d
  { d' with pending := rest }

/-! ### OUT completions -/

/-- The loads at the top of `onIso`: the frames this completion takes off the queue. -/
def completeOut (i : Nat) : Driver w := { d with pb := d.pb.subtractQueued (d.outFrames i) }

/-- Errors are counted; played frames become credit once playback has started. -/
def creditOut (i : Nat) : Driver w :=
  let x := d.transfers i
  { d with
    stats := { d.stats with playbackTransferErrors := d.stats.playbackTransferErrors +
      if x.status = .completed then x.packets.countP fun k => k.status ≠ .completed else 1 }
    pb := if d.pb.playbackStarted then { d.pb with playbackCredit := d.pb.playbackCredit + d.outFrames i } else d.pb }

def deferTransfer (i : Nat) : Driver w :=
  if d.pending.length < kMaxTransferCount then
    let zeroRunway : Bool := d.pb.queuedOutFrames = 0 && !d.implicitZeroRunwayActive
    { d.retireOut with
      pending := d.pending ++ [i]
      implicitZeroRunwayActive := d.implicitZeroRunwayActive || d.pb.queuedOutFrames = 0
      pb := { d.pb with playbackUnderruns := d.pb.playbackUnderruns + if zeroRunway then 1 else 0 }
      stats := { d.stats with
        zeroRunwayEvents := d.stats.zeroRunwayEvents + if zeroRunway then 1 else 0
        deferredTransfers := d.stats.deferredTransfers + 1 } }
  else d.failOut

def refillScheduled (i : Nat) : Driver w :=
  let plan := d.pacing.planPackets d.pb.format.feedbackEndpointAddress (d.transfers i).numIsoPackets
  let r := refill Playback.drainPacket d.stride 0 plan.1 (d.pb, d.transfers i)
  { d with pacing := plan.2, pb := r.1, transfers := Function.update d.transfers i r.2 }

/-- The common end of `onIso`: wake the producer, then submit again. -/
def resubmitOut (i : Nat) (implicit ok : Bool) : Driver w :=
  let d := ({ d with playbackWake := d.playbackWake.signalIfWaiting } : Driver w).submit (.out i) ok
    (d.transfers i).lengths
  if ok then d.queueSubmitted i implicit else d.failOut

def retires (i : Nat) : Bool := (d.transfers i).status = .cancelled || d.stopRequested

/-- The completion of transfer `i` keeps it in the rotation: it is refilled or deferred. -/
def keeps (i : Nat) : Bool := !d.retires i && !decide ((d.transfers i).status = .noDevice)

def onIso (i : Nat) (ok : Xfer → Bool) : Driver w :=
  if d.retires i then (d.completeOut i).retireOut
  else if (d.transfers i).status = .noDevice then (d.completeOut i).failOut
  else
    let d' := (d.completeOut i).creditOut i
    if d'.implicitMode then
      if d'.pending ≠ [] then d'.deferTransfer i
      else if (d'.prepareImplicitTransfer i).2 then
        (d'.prepareImplicitTransfer i).1.resubmitOut i true (ok (.out i))
      else (d'.prepareImplicitTransfer i).1.deferTransfer i
    else (d'.refillScheduled i).resubmitOut i false (ok (.out i))

/-! ### Feedback completions -/

/-- The rate a feedback packet of `actual` bytes carries, normalised to 16.16. -/
def feedbackRate (p : Nat → UInt8) (actual : Nat) : UInt32 :=
  if 4 ≤ actual then
    (p 0).toUInt32 ||| ((p 1).toUInt32 <<< 8) ||| ((p 2).toUInt32 <<< 16) ||| ((p 3).toUInt32 <<< 24)
  else if 3 ≤ actual then
    ((p 0).toUInt32 ||| ((p 1).toUInt32 <<< 8) ||| ((p 2).toUInt32 <<< 16)) <<< 2
  else 0

def acceptFeedback (x : Transfer) (k : IsoPacket) : Driver w :=
  let packetRateQ16 := (feedbackRate x.buffer k.actualLength).toNat * d.geometry.packetIntervalUframes
  if 0 < packetRateQ16 ∧ packetRateQ16 ≤ d.pacing.maxFramesPerPacket * 2 ^ 16 then
    { d with pacing := { d.pacing with framesPerUframe_q16 := UInt32.ofNat packetRateQ16 } }
  else d

def noteFeedback (x : Transfer) : Driver w :=
  match x.packets with
  | k :: _ =>
    if x.status = .completed ∧ k.status = .completed then d.acceptFeedback x k
    else { d with stats := { d.stats with playbackTransferErrors := d.stats.playbackTransferErrors + 1 } }
  | [] => { d with stats := { d.stats with playbackTransferErrors := d.stats.playbackTransferErrors + 1 } }

def onFeedback (k : Nat) (x : Transfer) (ok : Xfer → Bool) : Driver w :=
  if x.status = .cancelled ∨ d.stopRequested then d.retireOut
  else if x.status = .noDevice then d.failOut
  else
    let d' := (d.noteFeedback x).submit (.feedback k) (ok (.feedback k)) x.lengths
    if ok (.feedback k) then d' else d'.failOut

/-! ### Capture completions -/

/-- The frame count a capture packet contributes, as stored: a `uint16_t`, zero for a packet that failed. -/
def packetFrames (stride : Nat) : Option (List UInt8) → Nat
  | some bytes => bytes.length / stride % 2 ^ 16
  | none => 0

/-- The packet loop of `onCapture`: ring, then layout FIFO, for every packet. -/
def receiveCapture (x : Transfer) : Driver w :=
  let pkts := x.received d.cap.stride
  { d with
    cap := d.cap.receive pkts
    fifo := if d.implicitFormat then (pkts.map (packetFrames d.cap.stride)).foldl MetaFifo.push d.fifo else d.fifo
    stats := { d.stats with implicitMetadataInvalid := d.stats.implicitMetadataInvalid +
      if d.implicitFormat then pkts.countP (·.isNone) else 0 } }

def wakeCapture : Driver w := { d with captureWake := d.captureWake.signalIfWaiting }

/-- The completion enters the packet loop. -/
def accepts (x : Transfer) : Bool :=
  d.cap.captureActive && !decide (x.status = .cancelled) && !d.stopRequested && !decide (x.status = .noDevice)

def onCapture (j : Nat) (x : Transfer) (ok : Xfer → Bool) : Driver w :=
  if !d.cap.captureActive then d.retireCapture
  else if x.status = .cancelled ∨ d.stopRequested then d.retireCapture
  else if x.status = .noDevice then d.failCapture
  else
    let d' := ((d.receiveCapture x).submitPendingImplicitTransfers ok).wakeCapture
    if d'.transportFailed then d'.retireCapture
    else
      let d'' := d'.submit (.capture j) (ok (.capture j)) x.lengths
      if ok (.capture j) then d'' else d''.failCapture

def captureFrameLimit : Nat :=
  let g := d.geometry
  if d.cap.stride = 0 then 0
  else
    let captureTransferFrames := max 1 g.capturePacketsPerTransfer * g.captureMaxFramesPerPacket
    let queuedCaptureFrames := (g.transferCount + 2) * captureTransferFrames
    let capturePacketsPerSecond := packetsPerSecondForInterval d.cap.format.isHighSpeed d.cap.format.bInterval
    let submittedPlaybackFrames := g.transferCount *
      nominalTransferFrames d.cap.format.sampleRateHz g.capturePacketsPerTransfer capturePacketsPerSecond
    let playbackBudget := d.pb.playbackTargetFrames + g.graphQuantum + submittedPlaybackFrames
    let latencyLimit := max (g.graphQuantum * 2) (max (queuedCaptureFrames + g.graphQuantum) playbackBudget)
    let physicalLimit := d.cap.ring.size.bytes / d.cap.stride
    if 0 < g.captureLimitFrames then min physicalLimit g.captureLimitFrames else min physicalLimit latencyLimit

def captureAvailableFrames : Nat := d.cap.captureAvailableFrames d.captureFrameLimit

/-! ### What a callback can do -/

variable {d}

theorem prepareImplicitTransfer_of_canPrepare {i : Nat} (h : d.canPrepare i = true) :
    d.prepareImplicitTransfer i = (d.takeAndRefill i, true) := by
  simp only [canPrepare, Bool.and_eq_true, Bool.not_eq_true'] at h
  simp [prepareImplicitTransfer, h.1.1, h.1.2, h.2]

variable (d) in
def withStats (stats : TransportStats) : Driver w := { d with stats }

theorem prepareImplicitTransfer_of_not {i : Nat} (h : d.canPrepare i = false) :
    ∃ stats, d.prepareImplicitTransfer i = (d.withStats stats, false) := by
  unfold prepareImplicitTransfer
  split
  · exact ⟨d.stats, rfl⟩
  split
  · exact ⟨{ d.stats with deferredNoMetadata := d.stats.deferredNoMetadata + 1 }, rfl⟩
  split
  · exact ⟨{ d.stats with deferredNoPcm := d.stats.deferredNoPcm + 1 }, rfl⟩
  · rename_i h₁ h₂ h₃
    simp [canPrepare, h₁, h₂, h₃] at h

theorem prepareImplicitTransfer_prepared (i : Nat) : (d.prepareImplicitTransfer i).2 = d.canPrepare i := by
  cases hc : d.canPrepare i with
  | true => rw [prepareImplicitTransfer_of_canPrepare hc]
  | false =>
    obtain ⟨stats, he⟩ := prepareImplicitTransfer_of_not hc
    rw [he]

theorem prepareImplicitTransfer_refused {i : Nat} (h : ¬(d.prepareImplicitTransfer i).2 = true) :
    ∃ stats, d.prepareImplicitTransfer i = (d.withStats stats, false) := by
  rw [prepareImplicitTransfer_prepared] at h
  exact prepareImplicitTransfer_of_not (Bool.eq_false_iff.2 h)

@[simp] theorem canPrepare_creditOut (i k : Nat) :
    ((d.completeOut k).creditOut k).canPrepare i = d.canPrepare i := by
  have hpb : ((d.completeOut k).creditOut k).pb.bufferedFrames = d.pb.bufferedFrames := by
    simp only [creditOut]; split <;> rfl
  simp only [canPrepare, noPcm, hpb]
  rfl

theorem stopRequested_of_keeps {i : Nat} (h : d.keeps i = true) : d.stopRequested = false := by
  simp only [keeps, retires, Bool.and_eq_true, Bool.not_eq_true', Bool.or_eq_false_iff] at h
  exact h.1.2

theorem onIso_rule {P : Driver w → Prop} {i : Nat} {ok : Xfer → Bool}
    (retire : d.retires i = true → P (d.completeOut i).retireOut)
    (lost : d.retires i = false → (d.transfers i).status = .noDevice → P (d.completeOut i).failOut)
    (defer : d.keeps i = true → d.implicitMode = true → d.pending ≠ [] ∨ d.canPrepare i = false →
      ∀ stats, P ((((d.completeOut i).creditOut i).withStats stats).deferTransfer i))
    (implicit : d.keeps i = true → d.implicitMode = true → d.pending = [] → d.canPrepare i = true →
      P ((((d.completeOut i).creditOut i).takeAndRefill i).resubmitOut i true (ok (.out i))))
    (scheduled : d.keeps i = true → d.implicitMode = false →
      P ((((d.completeOut i).creditOut i).refillScheduled i).resubmitOut i false (ok (.out i)))) :
    P (d.onIso i ok) := by
  unfold onIso
  have hmode : ((d.completeOut i).creditOut i).implicitMode = d.implicitMode := by
    simp only [implicitMode, implicitFormat, creditOut]; split <;> rfl
  by_cases hr : d.retires i = true
  · rw [if_pos hr]; exact retire hr
  have hr' : d.retires i = false := by simpa using hr
  rw [if_neg hr]
  by_cases hn : (d.transfers i).status = .noDevice
  · rw [if_pos hn]; exact lost hr' hn
  rw [if_neg hn]
  have hkeep : d.keeps i = true := by simp [keeps, hr', hn]
  dsimp only
  rw [hmode]
  by_cases hm : d.implicitMode = true
  · rw [if_pos hm]
    by_cases hp : ((d.completeOut i).creditOut i).pending ≠ []
    · rw [if_pos hp]
      exact defer hkeep hm (.inl hp) ((d.completeOut i).creditOut i).stats
    rw [if_neg hp]
    by_cases hc : d.canPrepare i = true
    · rw [prepareImplicitTransfer_of_canPrepare (by rw [canPrepare_creditOut]; exact hc), if_pos rfl]
      exact implicit hkeep hm (not_not.1 hp) hc
    · have hc' : d.canPrepare i = false := by simpa using hc
      obtain ⟨stats, he⟩ :=
        prepareImplicitTransfer_of_not (d := (d.completeOut i).creditOut i) (i := i)
          (by rw [canPrepare_creditOut]; exact hc')
      rw [he, if_neg Bool.false_ne_true]
      exact defer hkeep hm (.inr hc') stats
  · rw [if_neg hm]
    exact scheduled hkeep (by simpa using hm)

theorem onFeedback_rule {P : Driver w → Prop} {k : Nat} {x : Transfer} {ok : Xfer → Bool}
    (retire : P d.retireOut) (lost : P d.failOut)
    (resubmit : d.stopRequested = false → ok (.feedback k) = true →
      P ((d.noteFeedback x).submit (.feedback k) true x.lengths))
    (refused : d.stopRequested = false → ok (.feedback k) = false →
      P ((d.noteFeedback x).submit (.feedback k) false x.lengths).failOut) :
    P (d.onFeedback k x ok) := by
  unfold onFeedback
  split
  · exact retire
  rename_i hs
  have hs' : d.stopRequested = false := by simpa using fun h => hs (.inr h)
  split
  · exact lost
  cases hok : ok (.feedback k)
  · exact refused hs' hok
  · exact resubmit hs' hok

/-- The loop over the pending transfers: `P d rest` relates the state to the transfers still pending. -/
theorem submitPending_rule (ok : Xfer → Bool) {P Q : Driver w → List Nat → Prop}
    (done : ∀ d, P d [] → Q d [])
    (stop : ∀ d i rest stats, P d (i :: rest) → d.canPrepare i = false → Q (d.withStats stats) (i :: rest))
    (refused : ∀ d i rest, P d (i :: rest) → d.canPrepare i = true → ok (.out i) = false →
      Q ((d.takeAndRefill i).submitPrepared i false).failOut (i :: rest))
    (release : ∀ d i rest, P d (i :: rest) → d.canPrepare i = true → ok (.out i) = true →
      P (((d.takeAndRefill i).submitPrepared i true).queueSubmitted i true) rest)
    (d : Driver w) (pending : List Nat) (h : P d pending) :
    Q (submitPending ok pending d).1 (submitPending ok pending d).2 := by
  induction pending generalizing d with
  | nil => exact done d h
  | cons i rest ih =>
    rw [submitPending]
    by_cases hc : d.canPrepare i = true
    · simp only [prepareImplicitTransfer_of_canPrepare hc, if_true]
      cases hok : ok (.out i)
      · exact refused d i rest h hc hok
      · exact ih _ (release d i rest h hc hok)
    · have hc' : d.canPrepare i = false := by simpa using hc
      obtain ⟨stats, he⟩ := prepareImplicitTransfer_of_not hc'
      simp only [he, Bool.false_eq_true, if_false]
      exact stop d i rest stats h hc'

theorem onCapture_rule {P : Driver w → Prop} {j : Nat} {x : Transfer} {ok : Xfer → Bool}
    (retire : d.accepts x = false → P d.retireCapture) (lost : d.accepts x = false → P d.failCapture)
    (failed : d.accepts x = true →
      P (((d.receiveCapture x).submitPendingImplicitTransfers ok).wakeCapture).retireCapture)
    (resubmit : d.accepts x = true → ok (.capture j) = true →
      P ((((d.receiveCapture x).submitPendingImplicitTransfers ok).wakeCapture).submit (.capture j) true x.lengths))
    (refused : d.accepts x = true → ok (.capture j) = false →
      P ((((d.receiveCapture x).submitPendingImplicitTransfers ok).wakeCapture).submit (.capture j) false
        x.lengths).failCapture) :
    P (d.onCapture j x ok) := by
  unfold onCapture
  by_cases ha : !d.cap.captureActive
  · have ha' : d.cap.captureActive = false := by simpa using ha
    rw [if_pos ha]
    exact retire (by simp [accepts, ha'])
  rw [if_neg ha]
  by_cases hs : x.status = .cancelled ∨ d.stopRequested = true
  · rw [if_pos hs]
    refine retire ?_
    rcases hs with hs | hs <;> simp [accepts, hs]
  rw [if_neg hs]
  by_cases hn : x.status = .noDevice
  · rw [if_pos hn]
    exact lost (by simp [accepts, hn])
  rw [if_neg hn]
  have hacc : d.accepts x = true := by
    rw [not_or] at hs
    simp_all [accepts]
  dsimp only
  split
  · exact failed hacc
  cases hok : ok (.capture j)
  · exact refused hacc hok
  · exact resubmit hacc hok

theorem accepts_flags {x : Transfer} (h : d.accepts x = true) :
    d.cap.captureActive = true ∧ d.stopRequested = false := by
  simp only [accepts, Bool.and_eq_true, Bool.not_eq_true'] at h
  exact ⟨h.1.1.1, h.1.2⟩

end Driver

end UacDriver

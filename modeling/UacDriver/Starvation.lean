import UacDriver.ImplicitOrder
import UacDriver.Pump
import UacDriver.Lib.Episodes

/-!
# Starvation is counted by the episode

A drain that is short and a deferral that leaves nothing queued both count an underrun, each behind a flag of its own. The
callbacks are read here as a log of events: every drain with what it asked for and what it got, every deferral with the
frames still queued, every accepted submission with its frames. What carries the result is `Driver.Counts`: the counters
are those of the log, the flag of the drains is that of the last drain, and, as long as a deferral can still happen, the
flag of the runway says whether an episode is open.
-/

namespace UacDriver

open Runs Episodes

inductive PumpEvent where
  | drain (requested drained : Nat)
  /-- A deferral, with `queuedOutFrames_` as the deferring completion leaves it. -/
  | defer (queued : Nat)
  | submit (frames : Nat)

namespace PumpEvent

/-- A drain, as short or not. -/
def short? : PumpEvent → Option Bool
  | drain requested drained => some (decide (drained < requested))
  | defer _ | submit _ => none

/-- What begins (`true`) or ends a zero-runway episode. -/
def runway? : PumpEvent → Option Bool
  | drain _ _ => none
  | defer queued => if queued = 0 then some true else none
  | submit frames => if 0 < frames then some false else none

/-- The whole frames that a drain is short of. -/
def shortfall (stride : Nat) : PumpEvent → Nat
  | drain requested drained => (requested - drained) / stride
  | defer _ | submit _ => 0

def delivered (stride : Nat) : PumpEvent → Nat
  | drain _ drained => drained / stride
  | defer _ | submit _ => 0

end PumpEvent

/-! ### The log of a callback -/

variable {w : Nat}

/-- The drains of a refill. -/
def Playback.refillLog (stride : Nat) : List Nat → Playback w → List PumpEvent
  | [], _ => []
  | frames :: plan, pb =>
    if 0 < frames * stride then
      .drain (frames * stride) (pb.drainCount (frames * stride)) ::
        refillLog stride plan (pb.drainRing (frames * stride)).1
    else refillLog stride plan pb

/-- The drains that fill one initial transfer. -/
def Playback.primeLog : List Nat → Playback w → List PumpEvent
  | [], _ => []
  | bytes :: rest, pb => .drain bytes (pb.drainCount bytes) :: primeLog rest (pb.drainRing bytes).1

namespace Driver

variable (d : Driver w)

def submitLog (i : Nat) (ok : Bool) : List PumpEvent := if ok then [.submit (d.outFrames i)] else []

def deferLog : List PumpEvent := if d.pending.length < kMaxTransferCount then [.defer d.pb.queuedOutFrames] else []

def onIsoLog (i : Nat) (ok : Xfer → Bool) : List PumpEvent :=
  if d.retires i then []
  else if (d.transfers i).status = .noDevice then []
  else
    let d' := (d.completeOut i).creditOut i
    if d'.implicitMode then
      if d'.pending ≠ [] then d'.deferLog
      else if (d'.prepareImplicitTransfer i).2 then
        d'.pb.refillLog d'.stride (d'.implicitPlan i) ++ (d'.prepareImplicitTransfer i).1.submitLog i (ok (.out i))
      else d'.deferLog
    else
      let plan := d'.pacing.planPackets d'.pb.format.feedbackEndpointAddress (d'.transfers i).numIsoPackets
      d'.pb.refillLog d'.stride plan.1 ++ (d'.refillScheduled i).submitLog i (ok (.out i))

/-- The transfers that `submitPendingImplicitTransfers` releases. -/
def submitPendingLog (ok : Xfer → Bool) : List Nat → Driver w → List PumpEvent
  | [], _ => []
  | i :: rest, d =>
    if (d.prepareImplicitTransfer i).2 then
      let d' := (d.prepareImplicitTransfer i).1.submitPrepared i (ok (.out i))
      d.pb.refillLog d.stride (d.implicitPlan i) ++ d'.submitLog i (ok (.out i)) ++
        if ok (.out i) then submitPendingLog ok rest (d'.queueSubmitted i true) else []
    else []

def onCaptureLog (x : Transfer) (ok : Xfer → Bool) : List PumpEvent :=
  if d.accepts x then submitPendingLog ok (d.receiveCapture x).pending (d.receiveCapture x) else []

def stepLog : DriverAct → List PumpEvent
  | .outDone i status results ok =>
    if .out i ∈ d.usb.owned then (d.deliverOut i status results).onIsoLog i ok else []
  | .captureDone j x ok => if .capture j ∈ d.usb.owned then (d.release (.capture j)).onCaptureLog x ok else []
  | _ => []

/-- The initial transfers, filled one after the other. -/
def primeAllLog : List Nat → Driver w → List PumpEvent
  | [], _ => []
  | i :: rest, d => Playback.primeLog (d.transfers i).lengths d.pb ++ primeAllLog rest (d.primeOut i)

/-- `startPlayback` that succeeds: playback counts as started, the initial transfers are filled and submitted. -/
def startPlaybackLog : List PumpEvent :=
  let d : Driver w := { d with pb := { d.pb with playbackStarted := true } }
  let filled := (List.range d.outCount).foldl primeOut d
  primeAllLog (List.range d.outCount) d ++ (List.range d.outCount).map fun i => .submit (filled.outFrames i)

/-- The counters say what the log says. -/
structure Tallies (log : List PumpEvent) : Prop where
  underruns : d.pb.playbackUnderruns =
    maximalRuns (log.filterMap PumpEvent.short?) + maximalRuns (log.filterMap PumpEvent.runway?)
  shortFrames : d.pb.playbackShortFrames = (log.map (PumpEvent.shortfall d.stride)).sum
  played : d.pb.playedFrames = (log.map (PumpEvent.delivered d.stride)).sum

/-- The counters with their flags, after a log of a session in which playback has started. -/
structure Counts (log : List PumpEvent) : Prop extends d.Tallies log where
  started : d.pb.playbackStarted = true
  shortActive : d.pb.playbackUnderrunActive = (log.filterMap PumpEvent.short?).getLastD false
  runwayActive : d.implicitMode = true →
    d.implicitZeroRunwayActive = (log.filterMap PumpEvent.runway?).getLastD false

end Driver

/-! ### One event -/

/-- What the counters of a log are made of. -/
structure Playback.Meter where
  format : StreamFormat
  playbackStarted : Bool
  playbackUnderruns : Nat
  playbackUnderrunActive : Bool
  playbackShortFrames : Nat
  playedFrames : Nat

def Playback.meter (p : Playback w) : Playback.Meter :=
  ⟨p.format, p.playbackStarted, p.playbackUnderruns, p.playbackUnderrunActive, p.playbackShortFrames, p.playedFrames⟩

namespace Playback

variable {p : Playback w}

theorem preparePlaybackWrite_meter (frames : Int) : (p.preparePlaybackWrite frames).1.meter = p.meter := by
  unfold preparePlaybackWrite
  split
  · rfl
  · dsimp only
    split <;> rfl

theorem commitPlaybackWrite_meter (region : PlaybackWriteRegion w) : (p.commitPlaybackWrite region).meter = p.meter := by
  unfold commitPlaybackWrite
  split <;> rfl

theorem writePcm_meter (data : List UInt8) (frames : Int) : (p.writePcm data frames).1.meter = p.meter := by
  unfold writePcm
  split
  · rfl
  · exact (commitPlaybackWrite_meter _).trans (preparePlaybackWrite_meter frames)

theorem takePlaybackCredit_meter (frames : Int) : (p.takePlaybackCredit frames).1.meter = p.meter := by
  unfold takePlaybackCredit
  split
  · rfl
  split
  · rfl
  split <;> rfl

theorem chargePlaybackCredit_meter (frames : Int) : (p.chargePlaybackCredit frames).meter = p.meter := by
  unfold chargePlaybackCredit
  split
  · rfl
  split <;> rfl

theorem submitQuantum_meter (accepting : Bool) (policy : Nat) (frames : Int) (packed : Option (List UInt8))
    (charge : Bool) : (p.submitQuantum accepting policy frames packed charge).1.meter = p.meter := by
  have hprepare := preparePlaybackWrite_meter (p := p) frames
  have hpaid := (takePlaybackCredit_meter frames).trans hprepare
  refine submitQuantum_rule (P := fun p' => p'.meter = p.meter) rfl hprepare ?_ ?_
  · rintro p₂ (rfl | ⟨-, -, rfl⟩)
    · exact hprepare
    · exact hpaid
  · rintro p₂ bytes - - (rfl | ⟨-, -, rfl, -⟩)
    · exact (commitPlaybackWrite_meter _).trans hprepare
    · exact (commitPlaybackWrite_meter _).trans hpaid

end Playback

namespace Driver

def withPb (d : Driver w) (pb : Playback w) : Driver w := { d with pb }

namespace Counts

variable {d d' : Driver w} {log : List PumpEvent}

theorem congr (h : d.Counts log) (hmeter : d'.pb.meter = d.pb.meter)
    (hmode : d'.implicitMode = true → d.implicitMode = true)
    (hrunway : d'.implicitZeroRunwayActive = d.implicitZeroRunwayActive) : d'.Counts log := by
  simp only [Playback.meter, Playback.Meter.mk.injEq] at hmeter
  obtain ⟨hformat, hstarted, hunderruns, hactive, hshort, hplayed⟩ := hmeter
  have hstride : d'.stride = d.stride := congrArg StreamFormat.frameStride hformat
  exact
    { underruns := hunderruns.trans h.underruns
      shortFrames := by rw [hshort, hstride, h.shortFrames]
      played := by rw [hplayed, hstride, h.played]
      started := hstarted.trans h.started
      shortActive := hactive.trans h.shortActive
      runwayActive := fun hm => hrunway.trans (h.runwayActive (hmode hm)) }

/-- A stop or a failure: no deferral can follow. -/
theorem inactive (h : d.Counts log) (hmeter : d'.pb.meter = d.pb.meter) (hoff : d'.cap.captureActive = false)
    (hrunway : d'.implicitZeroRunwayActive = d.implicitZeroRunwayActive) : d'.Counts log := by
  refine h.congr hmeter (fun hm => ?_) hrunway
  rw [implicitMode, hoff] at hm
  exact absurd hm Bool.false_ne_true

/-- Frames short of a drain that is not short are none. -/
theorem shortFrames_drainRing (p : Playback w) (bytes : Nat) : (p.drainRing bytes).1.playbackShortFrames =
    p.playbackShortFrames + (bytes - p.drainCount bytes) / p.stride := by
  simp only [Playback.drainRing]
  split
  · rfl
  · rename_i hno
    rcases Nat.eq_zero_or_pos p.stride with hzero | hpos
    · rw [hzero, Nat.div_zero, Nat.add_zero]
    · rw [Nat.sub_eq_zero_of_le (by omega), Nat.zero_div, Nat.add_zero]

theorem playedFrames_drainRing (p : Playback w) (bytes : Nat) : (p.drainRing bytes).1.playedFrames =
    p.playedFrames + p.drainCount bytes / p.stride := by
  simp only [Playback.drainRing]
  split
  · rfl
  · rename_i hno
    rw [Nat.eq_zero_of_not_pos hno, Nat.div_zero, Nat.add_zero]

theorem drain {pb : Playback w} (h : (d.withPb pb).Counts log) (bytes : Nat) :
    (d.withPb (pb.drainRing bytes).1).Counts (log ++ [.drain bytes (pb.drainCount bytes)]) where
  underruns := by
    have hflag : pb.playbackUnderrunActive = (log.filterMap PumpEvent.short?).getLastD false := h.shortActive
    have hcount : (pb.drainRing bytes).1.playbackUnderruns = pb.playbackUnderruns +
        if decide (pb.drainCount bytes < bytes) && !pb.playbackUnderrunActive then 1 else 0 := by
      have hstarted : pb.playbackStarted = true := h.started
      simp only [Playback.drainRing, hstarted, true_and, Bool.and_eq_true, decide_eq_true_eq]
      split <;> rfl
    have hold : pb.playbackUnderruns = _ := h.underruns
    rw [List.filterMap_append, List.filterMap_append]
    change (pb.drainRing bytes).1.playbackUnderruns = maximalRuns (_ ++ [decide _]) + maximalRuns (_ ++ [])
    rw [List.append_nil, maximalRuns_concat, hcount, hold, hflag]
    omega
  shortFrames := by
    have hold : pb.playbackShortFrames = _ := h.shortFrames
    rw [List.map_append, List.sum_append]
    refine (shortFrames_drainRing pb bytes).trans ?_
    rw [hold]
    rfl
  played := by
    have hold : pb.playedFrames = _ := h.played
    rw [List.map_append, List.sum_append]
    refine (playedFrames_drainRing pb bytes).trans ?_
    rw [hold]
    rfl
  started := h.started
  shortActive := by
    have hstarted : pb.playbackStarted = true := h.started
    rw [List.filterMap_append]
    change (pb.drainRing bytes).1.playbackUnderrunActive = (_ ++ [decide _]).getLastD false
    rw [List.getLastD_concat]
    simp only [Playback.drainRing, hstarted, Bool.or_true]
    split <;> simp_all
  runwayActive := by
    rw [List.filterMap_append]
    change _ → _ = (_ ++ []).getLastD false
    rw [List.append_nil]
    exact h.runwayActive

/-- An event of the runway, with what the callback does about it. -/
theorem runway {event : PumpEvent} (h : d.Counts log) (hshort : event.short? = none)
    (hshortfall : event.shortfall d.stride = 0) (hdelivered : event.delivered d.stride = 0)
    (hformat : d'.pb.format = d.pb.format) (hstarted : d'.pb.playbackStarted = d.pb.playbackStarted)
    (hactive : d'.pb.playbackUnderrunActive = d.pb.playbackUnderrunActive)
    (hshortFrames : d'.pb.playbackShortFrames = d.pb.playbackShortFrames)
    (hplayed : d'.pb.playedFrames = d.pb.playedFrames)
    (hunderruns : d'.pb.playbackUnderruns + maximalRuns (log.filterMap PumpEvent.runway?) =
      d.pb.playbackUnderruns + maximalRuns ((log ++ [event]).filterMap PumpEvent.runway?))
    (hrunway : d'.implicitMode = true →
      d'.implicitZeroRunwayActive = ((log ++ [event]).filterMap PumpEvent.runway?).getLastD false) :
    d'.Counts (log ++ [event]) := by
  have hstride : d'.stride = d.stride := congrArg StreamFormat.frameStride hformat
  have hshorts : (log ++ [event]).filterMap PumpEvent.short? = log.filterMap PumpEvent.short? := by
    rw [List.filterMap_append, List.filterMap_cons_none hshort, List.filterMap_nil, List.append_nil]
  have hold := h.underruns
  exact
    { underruns := by rw [hshorts]; omega
      shortFrames := by
        rw [hshortFrames, hstride, h.shortFrames, List.map_append, List.sum_append, List.map_singleton, List.sum_singleton,
          hshortfall, Nat.add_zero]
      played := by
        rw [hplayed, hstride, h.played, List.map_append, List.sum_append, List.map_singleton, List.sum_singleton,
          hdelivered, Nat.add_zero]
      started := hstarted.trans h.started
      shortActive := by rw [hshorts, hactive, h.shortActive]
      runwayActive := hrunway }

theorem deferTransfer (h : d.Counts log) (hmode : d.implicitMode = true) (i : Nat) :
    (d.deferTransfer i).Counts (log ++ d.deferLog) := by
  unfold Driver.deferTransfer deferLog
  by_cases hroom : d.pending.length < kMaxTransferCount
  · rw [if_pos hroom, if_pos hroom]
    have hflag := h.runwayActive hmode
    have hmarks : (log ++ [PumpEvent.defer d.pb.queuedOutFrames]).filterMap PumpEvent.runway? =
        log.filterMap PumpEvent.runway? ++ if d.pb.queuedOutFrames = 0 then [true] else [] := by
      rw [List.filterMap_append]
      congr 1
      simp only [List.filterMap_cons, PumpEvent.runway?]
      split <;> rename_i hq <;> split at hq <;> simp_all
    refine h.runway rfl rfl rfl rfl rfl rfl rfl rfl ?_ fun _ => ?_
    · rw [hmarks]
      dsimp only
      by_cases hq : d.pb.queuedOutFrames = 0
      · rw [if_pos hq, maximalRuns_concat, ← hflag]
        simp only [hq, decide_true, Bool.true_and]
        omega
      · rw [if_neg hq, List.append_nil]
        simp [hq]
    · rw [hmarks]
      dsimp only
      by_cases hq : d.pb.queuedOutFrames = 0
      · rw [if_pos hq, List.getLastD_concat]
        simp [hq]
      · rw [if_neg hq, List.append_nil, ← hflag]
        simp [hq]
  · rw [if_neg hroom, if_neg hroom, List.append_nil]
    exact h.inactive rfl rfl rfl

/-- An accepted submission; outside the implicit branch it must find no episode open that a deferral could still join. -/
theorem queueSubmitted (h : d.Counts log) (i : Nat) (implicit : Bool)
    (himplicit : implicit = true ∨ d.implicitMode = false ∨ d.implicitZeroRunwayActive = false) :
    (d.queueSubmitted i implicit).Counts (log ++ [.submit (d.outFrames i)]) := by
  have hmarks : (log ++ [PumpEvent.submit (d.outFrames i)]).filterMap PumpEvent.runway? =
      log.filterMap PumpEvent.runway? ++ if 0 < d.outFrames i then [false] else [] := by
    rw [List.filterMap_append]
    congr 1
    simp only [List.filterMap_cons, PumpEvent.runway?]
    split <;> rename_i hq <;> split at hq <;> simp_all
  refine h.runway rfl rfl rfl rfl rfl rfl rfl rfl ?_ fun hm => ?_
  · rw [hmarks]
    change d.pb.playbackUnderruns + _ = _
    by_cases hq : 0 < d.outFrames i
    · rw [if_pos hq, maximalRuns_concat]
      rfl
    · rw [if_neg hq, List.append_nil]
  · have hflag := h.runwayActive hm
    rw [hmarks]
    change (if implicit && decide (0 < d.outFrames i) then false else d.implicitZeroRunwayActive) = _
    by_cases hq : 0 < d.outFrames i
    · rw [if_pos hq, List.getLastD_concat]
      rcases himplicit with rfl | hoff | hclosed
      · simp [hq]
      · exact absurd (hoff.symm.trans hm) Bool.false_ne_true
      · rw [hclosed, ite_self]
    · rw [if_neg hq, List.append_nil, ← hflag]
      simp [hq]

/-! ### Loops of drains -/

theorem refill {pb : Playback w} (h : (d.withPb pb).Counts log) (stride p : Nat) (plan : List Nat) (x : Transfer) :
    (d.withPb (refill Playback.drainPacket stride p plan (pb, x)).1).Counts (log ++ pb.refillLog stride plan) := by
  induction plan generalizing p pb log x with
  | nil => rwa [Playback.refillLog, List.append_nil]
  | cons frames plan ih =>
    rw [UacDriver.refill, Playback.refillLog]
    unfold fillPacket
    split
    · rw [List.append_cons]
      exact ih (h.drain _) ..
    · exact ih h ..

theorem primeTransfer {pb : Playback w} (h : (d.withPb pb).Counts log) (p offset : Nat) (lengths : List Nat)
    (x : Transfer) :
    (d.withPb (Playback.primeTransfer p offset lengths (pb, x)).1).Counts (log ++ pb.primeLog lengths) := by
  induction lengths generalizing p offset pb log x with
  | nil => rwa [Playback.primeLog, List.append_nil]
  | cons bytes rest ih =>
    rw [Playback.primeTransfer, Playback.primeLog, List.append_cons]
    exact ih (h.drain _) ..

/-! ### Callbacks -/

theorem takeAndRefill (h : d.Counts log) (i : Nat) :
    (d.takeAndRefill i).Counts (log ++ d.pb.refillLog d.stride (d.implicitPlan i)) := by
  have hpb : (d.withPb d.pb).Counts log := h
  exact (hpb.refill d.stride 0 (d.implicitPlan i) (d.transfers i)).congr rfl id rfl

theorem refillScheduled (h : d.Counts log) (i : Nat) :
    (d.refillScheduled i).Counts (log ++ d.pb.refillLog d.stride
      (d.pacing.planPackets d.pb.format.feedbackEndpointAddress (d.transfers i).numIsoPackets).1) := by
  have hpb : (d.withPb d.pb).Counts log := h
  exact (hpb.refill d.stride 0 _ (d.transfers i)).congr rfl id rfl

theorem failOut (h : d.Counts log) : d.failOut.Counts log := h.inactive rfl rfl rfl

/-- The end of a callback that has refilled the transfer. -/
theorem resubmitOut (h : d.Counts log) (i : Nat) {implicit : Bool} (ok : Bool)
    (himplicit : implicit = true ∨ d.implicitMode = false) :
    (d.resubmitOut i implicit ok).Counts (log ++ d.submitLog i ok) := by
  unfold Driver.resubmitOut submitLog
  have hsubmit : (({ d with playbackWake := d.playbackWake.signalIfWaiting } : Driver w).submit (.out i) ok
      (d.transfers i).lengths).Counts log := h.congr rfl id rfl
  cases ok with
  | true => exact hsubmit.queueSubmitted i implicit (himplicit.imp_right .inl)
  | false =>
    rw [if_neg Bool.false_ne_true, if_neg Bool.false_ne_true, List.append_nil]
    exact hsubmit.failOut

/-- The state in which `onIso` chooses its branch. -/
theorem creditOut (h : d.Counts log) (i : Nat) : ((d.completeOut i).creditOut i).Counts log := by
  refine h.congr ?_ (fun hm => ?_) rfl
  · unfold Driver.creditOut
    split <;> rfl
  · refine Eq.trans ?_ hm
    unfold implicitMode implicitFormat Driver.creditOut
    split <;> rfl

theorem prepareImplicitTransfer (h : d.Counts log) {i : Nat} (hc : (d.prepareImplicitTransfer i).2 = true) :
    (d.prepareImplicitTransfer i).1.Counts (log ++ d.pb.refillLog d.stride (d.implicitPlan i)) := by
  rw [prepareImplicitTransfer_prepared] at hc
  rw [prepareImplicitTransfer_of_canPrepare hc]
  exact h.takeAndRefill i

theorem onIso (h : d.Counts log) (i : Nat) (ok : Xfer → Bool) : (d.onIso i ok).Counts (log ++ d.onIsoLog i ok) := by
  unfold Driver.onIso onIsoLog
  have hcomplete := h.creditOut i
  split
  · rw [List.append_nil]
    exact h.congr rfl id rfl
  split
  · rw [List.append_nil]
    have hretire : (d.completeOut i).Counts log := h.congr rfl id rfl
    exact hretire.failOut
  dsimp only
  generalize (d.completeOut i).creditOut i = e at hcomplete
  split
  · rename_i hmode
    split
    · exact hcomplete.deferTransfer hmode i
    split
    · rename_i hprepared
      rw [← List.append_assoc]
      exact (hcomplete.prepareImplicitTransfer hprepared).resubmitOut i _ (.inl rfl)
    · rename_i hrefused
      obtain ⟨stats, he⟩ := prepareImplicitTransfer_refused hrefused
      rw [he]
      have hstats : (e.withStats stats).Counts log := hcomplete.congr rfl id rfl
      exact hstats.deferTransfer hmode i
  · rename_i hmode
    have hside := refill_eventSide e.stride
      (e.pacing.planPackets e.pb.format.feedbackEndpointAddress (e.transfers i).numIsoPackets).1 e.pb (e.transfers i)
    have hmode' : (e.refillScheduled i).implicitMode = e.implicitMode :=
      congrArg (fun side : StreamFormat × Nat × Bool =>
        e.cap.captureActive && (e.cap.format.implicitFeedback && side.1.feedbackEndpointAddress == 0)) hside
    rw [← List.append_assoc]
    exact (hcomplete.refillScheduled i).resubmitOut i _ (.inr (hmode'.trans (Bool.eq_false_iff.2 hmode)))

theorem submitPending (ok : Xfer → Bool) (pending : List Nat) (h : d.Counts log) :
    (Driver.submitPending ok pending d).1.Counts (log ++ submitPendingLog ok pending d) := by
  induction pending generalizing d log with
  | nil => rwa [submitPendingLog, List.append_nil]
  | cons i rest ih =>
    rw [Driver.submitPending, submitPendingLog]
    split
    · rename_i hprepared
      have hsubmit : ((d.prepareImplicitTransfer i).1.submitPrepared i (ok (.out i))).Counts
          (log ++ d.pb.refillLog d.stride (d.implicitPlan i)) :=
        (h.prepareImplicitTransfer hprepared).congr rfl id rfl
      dsimp only
      revert hsubmit
      cases ok (.out i) with
      | true =>
        intro hsubmit
        have hqueued := hsubmit.queueSubmitted i true (.inl rfl)
        rw [if_pos rfl, if_pos rfl, ← List.append_assoc, ← List.append_assoc]
        exact ih hqueued
      | false =>
        intro hsubmit
        rw [if_neg Bool.false_ne_true, if_neg Bool.false_ne_true, submitLog, if_neg Bool.false_ne_true, List.append_nil,
          List.append_nil]
        exact hsubmit.failOut
    · rename_i hrefused
      obtain ⟨stats, he⟩ := prepareImplicitTransfer_refused hrefused
      rw [he, List.append_nil]
      exact h.congr rfl id rfl

theorem receiveCapture (h : d.Counts log) (x : Transfer) : (d.receiveCapture x).Counts log :=
  h.congr rfl
    (fun hm => implicitMode_of_eq hm (Capture.receive_active _).symm (Capture.receive_format _).symm rfl) rfl

theorem failCapture (h : d.Counts log) : d.failCapture.Counts log := h.inactive rfl rfl rfl

theorem onCapture (h : d.Counts log) (j : Nat) (x : Transfer) (ok : Xfer → Bool) :
    (d.onCapture j x ok).Counts (log ++ d.onCaptureLog x ok) := by
  unfold onCaptureLog
  cases ha : d.accepts x with
  | false =>
    rw [if_neg Bool.false_ne_true, List.append_nil]
    refine onCapture_rule (P := fun d' => d'.Counts log) (fun _ => ?_) (fun _ => h.failCapture) ?_ ?_ ?_
    · exact h.congr rfl id rfl
    all_goals
      intro ha'
      exact absurd (ha.symm.trans ha') Bool.false_ne_true
  | true =>
    rw [if_pos rfl]
    have hpump : (((d.receiveCapture x).submitPendingImplicitTransfers ok).wakeCapture).Counts
        (log ++ submitPendingLog ok (d.receiveCapture x).pending (d.receiveCapture x)) :=
      ((h.receiveCapture x).submitPending ok (d.receiveCapture x).pending).congr rfl id rfl
    refine onCapture_rule
      (P := fun d' => d'.Counts (log ++ submitPendingLog ok (d.receiveCapture x).pending (d.receiveCapture x)))
      ?_ ?_ (fun _ => hpump.congr rfl id rfl) (fun _ _ => hpump.congr rfl id rfl) fun _ _ => ?_
    iterate 2
      intro ha'
      exact absurd (ha'.symm.trans ha) Bool.false_ne_true
    · refine failCapture ?_
      exact hpump.congr rfl id rfl

theorem noteFeedback (h : d.Counts log) (x : Transfer) : (d.noteFeedback x).Counts log := by
  unfold Driver.noteFeedback
  split
  · split
    · unfold acceptFeedback
      dsimp only
      split
      · exact h.congr rfl id rfl
      · exact h
    · exact h.congr rfl id rfl
  · exact h.congr rfl id rfl

theorem onFeedback (h : d.Counts log) (k : Nat) (x : Transfer) (ok : Xfer → Bool) : (d.onFeedback k x ok).Counts log := by
  have hnote := h.noteFeedback x
  refine onFeedback_rule (P := fun d' => d'.Counts log) ?_ h.failOut (fun _ _ => ?_) fun _ _ => ?_
  · exact h.congr rfl id rfl
  · exact hnote.congr rfl id rfl
  · refine failOut ?_
    exact hnote.congr rfl id rfl

/-! ### A step -/

theorem setPb (h : d.Counts log) {pb : Playback w} (hmeter : pb.meter = d.pb.meter) : (d.withPb pb).Counts log := by
  have hformat : pb.format = d.pb.format := congrArg Playback.Meter.format hmeter
  exact h.congr hmeter (fun hm => implicitMode_of_eq hm rfl rfl hformat.symm) rfl

theorem step (h : d.Counts log) (a : DriverAct) : (d.step a).Counts (log ++ d.stepLog a) := by
  have silent {d' : Driver w} (h' : d'.Counts log) : d'.Counts (log ++ []) := by rwa [List.append_nil]
  cases a with
  | outDone i status results ok =>
    unfold Driver.step stepLog
    dsimp only
    split
    · have hdeliver : (d.deliverOut i status results).Counts log := h.congr rfl id rfl
      exact hdeliver.onIso i ok
    · exact silent h
  | captureDone j x ok =>
    unfold Driver.step stepLog
    dsimp only
    split
    · have hrelease : (d.release (.capture j)).Counts log := h.congr rfl id rfl
      exact hrelease.onCapture j x ok
    · exact silent h
  | feedbackDone k x ok =>
    refine silent ?_
    unfold Driver.step
    dsimp only
    split
    · have hrelease : (d.release (.feedback k)).Counts log := h.congr rfl id rfl
      exact hrelease.onFeedback k x ok
    · exact h
  | requestStop => exact silent (h.inactive rfl rfl rfl)
  | writePcm data frames => exact silent (h.setPb (Playback.writePcm_meter data frames))
  | submitQuantum accepting policy frames packed charge =>
    exact silent (h.setPb (Playback.submitQuantum_meter accepting policy frames packed charge))
  | takePlaybackCredit frames => exact silent (h.setPb (Playback.takePlaybackCredit_meter frames))
  | chargePlaybackCredit frames => exact silent (h.setPb (Playback.chargePlaybackCredit_meter frames))
  | readCapturePcm frames =>
    exact silent (h.congr rfl (fun hm => implicitMode_of_eq hm (Capture.readCapturePcm_active _ _).symm
      (Capture.readCapturePcm_format _ _).symm rfl) rfl)
  | _ => exact silent (h.congr rfl id rfl)

/-- A run adds the logs of its steps. -/
theorem run (h : d.Counts log) (as : List DriverAct) :
    (Runs.run Driver.step d as).Counts (log ++ Runs.log Driver.step stepLog d as) := by
  induction as generalizing d log with
  | nil => rwa [Runs.log, List.append_nil]
  | cons a as ih =>
    rw [Runs.log, ← List.append_assoc]
    exact ih (h.step a)

/-! ### The start of playback -/

theorem primeAll (h : d.Counts log) (is : List Nat) : (is.foldl Driver.primeOut d).Counts (log ++ primeAllLog is d) := by
  induction is generalizing d log with
  | nil => rwa [primeAllLog, List.append_nil]
  | cons i is ih =>
    have hpb : (d.withPb d.pb).Counts log := h
    have hprime : (d.primeOut i).Counts (log ++ Playback.primeLog (d.transfers i).lengths d.pb) :=
      (hpb.primeTransfer 0 0 (d.transfers i).lengths (d.transfers i)).congr rfl id rfl
    rw [primeAllLog, ← List.append_assoc]
    exact ih hprime

/-- The initial submissions, made while no episode is open. -/
theorem submitOuts (h : d.Counts log) (hclosed : d.implicitZeroRunwayActive = false) {ok : Xfer → Bool}
    {lengths : Xfer → List Nat} {is : List Nat}
    (he : (is.map Xfer.out).foldlM (fun d' x => submitFirst d' ok lengths x) d = some d') :
    d'.Counts (log ++ is.map fun i => .submit (d.outFrames i)) := by
  induction is generalizing d log with
  | nil =>
    obtain rfl : d = d' := Option.some.inj he
    rwa [List.map_nil, List.append_nil]
  | cons i is ih =>
    rw [List.map_cons, List.foldlM_cons] at he
    obtain ⟨e, hfirst, he⟩ := Option.bind_eq_some_iff.1 he
    unfold submitFirst at hfirst
    split at hfirst
    · obtain rfl := Option.some.inj hfirst
      have hsubmit : (({ d with inflight := d.inflight + 1 } : Driver w).submit (.out i) true
          (d.transfers i).lengths).Counts log := h.congr rfl id rfl
      have hqueued := hsubmit.queueSubmitted i false (.inr (.inr hclosed))
      have hrest := ih hqueued hclosed he
      rw [List.map_cons, List.append_cons]
      exact hrest
    · cases hfirst

theorem submitFeedbacks (h : d.Counts log) {ok : Xfer → Bool} {lengths : Xfer → List Nat} {ks : List Nat}
    (he : (ks.map Xfer.feedback).foldlM (fun d' x => submitFirst d' ok lengths x) d = some d') :
    d'.Counts log ∧ d'.implicitZeroRunwayActive = d.implicitZeroRunwayActive ∧ d'.transfers = d.transfers ∧
      d'.stride = d.stride := by
  induction ks generalizing d with
  | nil =>
    obtain rfl : d = d' := Option.some.inj he
    exact ⟨h, rfl, rfl, rfl⟩
  | cons k ks ih =>
    rw [List.map_cons, List.foldlM_cons] at he
    obtain ⟨e, hfirst, he⟩ := Option.bind_eq_some_iff.1 he
    unfold submitFirst at hfirst
    split at hfirst
    · obtain rfl := Option.some.inj hfirst
      have hsubmit : (({ d with inflight := d.inflight + 1 } : Driver w).submit (.feedback k) true
          (lengths (.feedback k))).Counts log := h.congr rfl id rfl
      obtain ⟨hcounts, hrunway, htransfers, hstride⟩ := ih hsubmit he
      exact ⟨hcounts, hrunway, htransfers, hstride⟩
    · cases hfirst

end Counts

/-- The counters are zero and no episode is open. -/
structure Uncounted (d : Driver w) : Prop where
  underruns : d.pb.playbackUnderruns = 0
  shortFrames : d.pb.playbackShortFrames = 0
  played : d.pb.playedFrames = 0
  shortActive : d.pb.playbackUnderrunActive = false
  runwayActive : d.implicitZeroRunwayActive = false

variable {d d₀ : Driver w}

theorem primeAll_runwayActive (d : Driver w) (is : List Nat) :
    (is.foldl primeOut d).implicitZeroRunwayActive = d.implicitZeroRunwayActive := by
  induction is generalizing d with
  | nil => rfl
  | cons i is ih => exact ih (d.primeOut i)

/-- Playback counts as started before the initial transfers are filled. -/
theorem Uncounted.startPlayback (h : d.Uncounted) {ok : Xfer → Bool} (hstart : d.startPlayback ok = some d₀) :
    d₀.Counts d.startPlaybackLog := by
  unfold Driver.startPlayback at hstart
  split at hstart
  · cases hstart
  unfold submitIsoPump at hstart
  split at hstart
  · cases hstart
  split at hstart
  · cases hstart
  unfold startPlaybackLog
  dsimp only at hstart ⊢
  set e : Driver w := { d with pb := { d.pb with playbackStarted := true } }
  have hcas : e.Counts [] :=
    { underruns := h.underruns
      shortFrames := h.shortFrames
      played := h.played
      started := rfl
      shortActive := h.shortActive
      runwayActive := fun _ => h.runwayActive }
  have hfilled := hcas.primeAll (List.range e.outCount)
  have hclosed := primeAll_runwayActive e (List.range e.outCount)
  obtain ⟨e', hsubmit, rfl⟩ := Option.map_eq_some_iff.1 hstart
  unfold initialXfers at hsubmit
  rw [List.foldlM_append] at hsubmit
  obtain ⟨e'', hfeedbacks, houts⟩ := Option.bind_eq_some_iff.1 hsubmit
  obtain ⟨hcounts, hclosed', htransfers, hstride⟩ := hfilled.submitFeedbacks hfeedbacks
  have hsubmitted := hcounts.submitOuts (hclosed'.trans (hclosed.trans h.runwayActive)) houts
  have hframes (i : Nat) : e''.outFrames i = ((List.range e.outCount).foldl primeOut e).outFrames i := by
    unfold outFrames
    rw [htransfers, hstride]
  simp only [hframes] at hsubmitted
  have hstarted := hsubmitted.started
  refine hsubmitted.congr ?_ id rfl
  simp only [Playback.meter, hstarted]

end Driver

end UacDriver

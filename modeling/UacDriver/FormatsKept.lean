import UacDriver.Burst
import UacDriver.CaptureAdmission
import UacDriver.Ownership

/-!
# What changes the formats

The playback and the capture format of the driver are stored by a start and cleared by a close. Everything else, the
callbacks with any schedule between them and the stops with their waits, leaves both alone and keeps the playback ring
from being overfilled. A start that succeeds, by either profile, ends with a playback format that meets its request.
-/

namespace UacDriver

open Runs

variable {w : Nat}

/-! ### What leaves the formats alone -/

namespace Driver

variable {d d' d'' : Driver w}

def RingFits (d : Driver w) : Prop := d.pb.ring.used ≤ d.pb.ring.size.bytes

/-- Both formats stay, and the playback ring is not overfilled. -/
structure Steady (d d' : Driver w) : Prop where
  playback : d'.pb.format = d.pb.format
  capture : d'.cap.format = d.cap.format
  fits : d.RingFits → d'.RingFits

namespace Steady

@[refl] theorem refl (d : Driver w) : Steady d d := ⟨rfl, rfl, id⟩

theorem trans (h : Steady d d') (h' : Steady d' d'') : Steady d d'' :=
  ⟨h'.playback.trans h.playback, h'.capture.trans h.capture, h'.fits ∘ h.fits⟩

theorem of_ring (hformat : d'.pb.format = d.pb.format) (hcapture : d'.cap.format = d.cap.format)
    (hring : d'.pb.ring = d.pb.ring) : Steady d d' := by
  refine ⟨hformat, hcapture, fun h => ?_⟩
  rw [RingFits, hring]
  exact h

end Steady

/-- The drains of a callback take whole regions off the ring. -/
theorem pumps_steady {p q : Playback w} {events : List PumpEvent} (h : p.Pumps events q) :
    q.format = p.format ∧ (p.ring.used ≤ p.ring.size.bytes → q.ring.used ≤ q.ring.size.bytes) := by
  refine h.rule (P := fun q _ => q.format = p.format ∧ (p.ring.used ≤ p.ring.size.bytes → q.ring.used ≤ q.ring.size.bytes))
    ?_ ?_ (fun _ _ _ _ h => h) [] ⟨rfl, id⟩
  · rintro q q' _ hside ⟨hformat, hfits⟩
    have hring : q'.drainSide.ring = q.drainSide.ring := congrArg Playback.ring hside
    have hformat' : q'.drainSide.format = q.drainSide.format := congrArg Playback.format hside
    rw [show q'.ring = q.ring from hring, show q'.format = q.format from hformat']
    exact ⟨hformat, hfits⟩
  · rintro q _ requested ⟨hformat, hfits⟩
    refine ⟨hformat, fun h => ?_⟩
    rw [Playback.drainRing_used, Playback.drainRing_size]
    exact (Nat.sub_le _ _).trans (hfits h)

theorem step_capFormat (d : Driver w) (a : DriverAct) : (d.step a).cap.format = d.cap.format := by
  cases a with
  | outDone i status results ok =>
    simp only [step]
    split
    · exact (CaptureKept.onIso (d := d.deliverOut i status results) i ok).format
    · rfl
  | feedbackDone k x ok =>
    simp only [step]
    split
    · exact (CaptureKept.onFeedback (d := d.release (.feedback k)) k x ok).format
    · rfl
  | captureDone j x ok =>
    simp only [step]
    split
    · have hreceive : ((d.release (.capture j)).receiveCapture x).cap.format = d.cap.format := Capture.receive_format _
      have hpending := ((CaptureKept.submitPendingImplicitTransfers (d := (d.release (.capture j)).receiveCapture x) ok).format).trans
        hreceive
      refine onCapture_rule (P := fun d' => d'.cap.format = d.cap.format) (fun _ => rfl) (fun _ => rfl) (fun _ => hpending)
        (fun _ _ => hpending) fun _ _ => hpending
    · rfl
  | readCapturePcm frames => exact Capture.readCapturePcm_format _ _
  | _ => rfl

theorem burstFits_zero {p : Playback w} (h : p.ring.used ≤ p.ring.size.bytes) : p.BurstFits 0 0 := by
  refine ⟨h, ?_, ?_⟩
  · rw [Nat.zero_mul]
    exact Nat.zero_le _
  · rw [Nat.zero_mul]

theorem step_steady (d : Driver w) (a : DriverAct) : Steady d (d.step a) := by
  refine ⟨?_, d.step_capFormat a, fun h => ?_⟩
  · cases a with
    | outDone i status results ok => exact (pumps_steady (d.step_pumps rfl)).1
    | feedbackDone k x ok => exact (pumps_steady (d.step_pumps rfl)).1
    | captureDone j x ok => exact (pumps_steady (d.step_pumps rfl)).1
    | writePcm data frames => exact congrArg Prod.fst (Playback.writePcm_eventSide data frames)
    | submitQuantum accepting policy frames packed charge =>
      exact congrArg Prod.fst (Playback.submitQuantum_eventSide d.pb accepting policy frames packed charge)
    | takePlaybackCredit frames => exact congrArg Prod.fst (Playback.takePlaybackCredit_eventSide frames)
    | chargePlaybackCredit frames => exact congrArg Prod.fst (Playback.chargePlaybackCredit_eventSide frames)
    | _ => rfl
  · cases a with
    | outDone i status results ok => exact (pumps_steady (d.step_pumps rfl)).2 h
    | feedbackDone k x ok => exact (pumps_steady (d.step_pumps rfl)).2 h
    | captureDone j x ok => exact (pumps_steady (d.step_pumps rfl)).2 h
    | writePcm data frames => exact ((burstFits_zero h).writePcm data frames).used_le
    | submitQuantum accepting policy frames packed charge =>
      rcases Playback.submitQuantum_stock (p := d.pb) accepting policy frames packed charge with
        ⟨-, hstock⟩ | ⟨-, -, -, -, p₂, bytes, hstock, heq⟩
      · exact ((burstFits_zero h).of_stock hstock).used_le
      · have hcommit := ((burstFits_zero h).commit frames hstock bytes).1
        simp only [step, RingFits, heq]
        exact hcommit
    | takePlaybackCredit frames => exact ((burstFits_zero h).of_stock (Playback.takePlaybackCredit_stock frames)).used_le
    | chargePlaybackCredit frames => exact ((burstFits_zero h).of_stock (Playback.chargePlaybackCredit_stock frames)).used_le
    | _ => exact h

theorem run_steady (d : Driver w) (as : List DriverAct) : Steady d (run step d as) :=
  run_invariant (I := Steady d) (fun d' a h => h.trans (d'.step_steady a)) (.refl d) as

theorem submitCaptures_steady (lengths : List Nat) (a : Answers w) (js : List Nat) (d : Driver w) :
    Steady d (submitCaptures lengths a js d).1 := by
  induction js generalizing d with
  | nil => exact .refl d
  | cons j js ih =>
    rw [submitCaptures]
    have hothers := d.run_steady (a.others (.captureSubmit j) d)
    dsimp only
    split
    · refine hothers.trans (Steady.trans ?_ (ih _))
      exact .of_ring rfl rfl rfl
    · exact hothers.trans (.of_ring rfl rfl rfl)

theorem primeTransfer_steady (p offset : Nat) (rest : List Nat) (pb : Playback w) (x : Transfer)
    (h : pb.ring.used ≤ pb.ring.size.bytes) :
    (Playback.primeTransfer p offset rest (pb, x)).1.ring.used ≤ (Playback.primeTransfer p offset rest (pb, x)).1.ring.size.bytes := by
  induction rest generalizing p offset pb x with
  | nil => exact h
  | cons bytes rest ih =>
    have hdrained : (pb.drainRing bytes).1.ring.used ≤ (pb.drainRing bytes).1.ring.size.bytes := by
      rw [Playback.drainRing_used, Playback.drainRing_size]
      exact (Nat.sub_le _ _).trans h
    exact ih _ _ _ _ hdrained

theorem primeOut_steady (is : List Nat) (d : Driver w) : Steady d (is.foldl primeOut d) := by
  induction is generalizing d with
  | nil => exact .refl d
  | cons i is ih =>
    have hone : Steady d (d.primeOut i) :=
      ⟨congrArg Prod.fst (Playback.primeTransfer_eventSide ..), rfl, fun h => primeTransfer_steady _ _ _ _ _ h⟩
    exact hone.trans (ih (d.primeOut i))

theorem submitInitial_steady (a : PlaybackAnswers w) (xs : List Xfer) (d : Driver w) : Steady d (submitInitial a xs d).1 := by
  induction xs generalizing d with
  | nil => exact .refl d
  | cons x xs ih =>
    rw [submitInitial]
    have hbefore := d.run_steady (a.before x d)
    generalize run step d (a.before x d) = d₁ at hbefore
    unfold submitFirst
    split
    · rename_i d' hd
      refine hbefore.trans (Steady.trans ?_ (ih d'))
      split at hd
      · cases x <;> cases hd <;> exact .of_ring rfl rfl rfl
      · cases hd
    · exact hbefore.trans (.of_ring rfl rfl rfl)

end Driver

/-! ### What the calls of the control thread do to the formats -/

namespace Host

open Driver

variable {h : Host w}

theorem stopIsoPump_steady (h : Host w) (served : List DriverAct) : Steady h.drv (h.stopIsoPump served).1.drv := by
  have hrequest : Steady h.drv { h.drv with stopRequested := true } := .of_ring rfl rfl rfl
  have hserved := hrequest.trans (run_steady { h.drv with stopRequested := true } served)
  rcases stopIsoPump_cases h served with ⟨-, he⟩ | ⟨-, he⟩
  · rw [he]
    exact hserved
  · rw [he]
    exact hserved.trans (.of_ring rfl rfl rfl)

theorem stopCapturePump_steady (h : Host w) (served : List DriverAct) : Steady h.drv (h.stopCapturePump served).1.drv := by
  have hserved := h.drv.run_steady served
  rcases stopCapturePump_cases h served with ⟨-, he⟩ | ⟨-, he⟩
  · rw [he]
    exact hserved
  · rw [he]
    exact hserved.trans (.of_ring rfl rfl rfl)

theorem stopPumps_steady (h : Host w) (a : Answers w) (out capture : Place) : Steady h.drv (h.stopPumps a out capture).1.drv :=
  (stopIsoPump_steady h _).trans (stopCapturePump_steady _ _)

theorem stop_steady (h : Host w) (a : Answers w) : Steady h.drv (h.stop a).drv := by
  have hrequest : Steady h.drv (h.withDriver h.drv.requestStop).drv := .of_ring rfl rfl rfl
  have hpumps := hrequest.trans (stopPumps_steady (h.withDriver h.drv.requestStop) a .stopOut .stopCapture)
  unfold stop
  dsimp only
  generalize (h.withDriver h.drv.requestStop).stopPumps a .stopOut .stopCapture = r at *
  split
  · exact hrequest
  split
  · show Steady h.drv r.1.releaseStreaming.releaseControl.releaseCapture.drv.stopReset
    rw [releaseCapture_drv, releaseControl_drv, releaseStreaming_drv]
    exact hpumps.trans (.of_ring rfl rfl rfl)
  · exact hpumps

theorem reconfigure_steady (h : Host w) (a : Answers w) : Steady h.drv (h.reconfigure a).1.drv := by
  have hoff : Steady h.drv h.deactivateCapture.drv := .of_ring rfl rfl rfl
  have hpumps := hoff.trans (stopPumps_steady h.deactivateCapture a .reconfigureOut .reconfigureCapture)
  unfold reconfigure
  dsimp only
  generalize h.deactivateCapture.stopPumps a .reconfigureOut .reconfigureCapture = r at *
  split
  · split
    · exact hpumps
    · exact hpumps.trans (.of_ring rfl rfl rfl)
  · exact .refl _

theorem allocateCaptures_steady (h : Host w) (packets : Nat) (a : Answers w) :
    Steady h.drv (h.allocateCaptures packets a).1.drv := by
  have hactive : Steady h.drv h.drv.activateCapture := .of_ring rfl rfl rfl
  have hsubmitted := hactive.trans (submitCaptures_steady (List.replicate packets a.mps.toNat) a
    (List.range h.drv.geometry.transferCount) h.drv.activateCapture)
  unfold allocateCaptures
  dsimp only
  generalize ((List.range h.drv.geometry.transferCount).takeWhile a.captureAlloc).length = captureCount
  generalize submitCaptures _ a _ h.drv.activateCapture = r at *
  split
  · exact stopCapturePump_steady { h with captureCount } _
  split
  · exact hsubmitted
  · exact hsubmitted.trans (stopCapturePump_steady (Host.withDriver { h with captureCount } r.1) _)

theorem startCapturePump_steady (h : Host w) (a : Answers w) : Steady h.drv (h.startCapturePump a).1.drv := by
  have hpackets (packets : Nat) : Steady h.drv (h.drv.withCapturePackets packets) := .of_ring rfl rfl rfl
  have hframes (packets frames : Nat) : Steady h.drv ((h.drv.withCapturePackets packets).withCaptureFrames frames) :=
    .of_ring rfl rfl rfl
  unfold startCapturePump
  dsimp only
  split
  · exact .refl _
  split
  · exact hpackets _
  · refine Steady.trans ?_ (allocateCaptures_steady _ _ a)
    exact hframes _ _

theorem primeLayout_steady (h : Host w) (a : Answers w) : Steady h.drv (h.primeLayout a).1.drv := by
  have hwaited := (h.drv.step_steady .registerCapture).trans (run_steady _ (a.others .priming (h.drv.step .registerCapture)))
  unfold primeLayout
  dsimp only
  split <;> exact hwaited.trans (step_steady _ .unregisterCapture)

theorem startIsoPump_steady (h : Host w) (a : Answers w) : Steady h.drv (h.startIsoPump a).1.drv := by
  unfold startIsoPump
  split
  · rename_i d hd
    unfold Driver.startIsoPump at hd
    dsimp only at hd
    obtain ⟨-, hplan⟩ := Option.ite_none_left_eq_some.1 hd
    obtain ⟨⟨plan, fifo⟩, -, rfl⟩ := Option.map_eq_some_iff.1 hplan
    exact .of_ring rfl rfl rfl
  · dsimp only
    rcases h.drv.abandonIsoPump_cases a.maxPacket a.alloc a.allocated with ⟨_, _, he, -⟩ | ⟨_, _, _, _, _, he, -⟩
    all_goals
      rw [he]
      exact .of_ring rfl rfl rfl

theorem line6Fail_steady (h : Host w) (a : Answers w) (code : StartError) : Steady h.drv (h.line6Fail a code).1.drv := by
  have hoff : Steady h.drv h.deactivateCapture.drv := .of_ring rfl rfl rfl
  have hpumps := hoff.trans (stopPumps_steady { h.deactivateCapture with lastError := code } a .stopOut .stopCapture)
  unfold line6Fail
  dsimp only
  generalize stopPumps _ a .stopOut .stopCapture = r at *
  have hreleased : Steady h.drv r.1.releaseStreaming.drv := by
    rw [releaseStreaming_drv]
    exact hpumps
  exact hreleased.trans (.of_ring rfl rfl rfl)

/-! ### A start that succeeds has negotiated -/

/-- The ring fits, and a start that has succeeded works with a format that meets the request. -/
def Negotiated (req : StreamRequest) (r : Host w × Bool) : Prop :=
  r.1.drv.RingFits ∧ (r.2 = true → NegotiatesPlayback req r.1.drv.pb.format)

theorem Negotiated.failed {req : StreamRequest} {r : Host w × Bool} (hfits : r.1.drv.RingFits) (h : r.2 = false) :
    Negotiated req r :=
  ⟨hfits, fun hok => (by cases h.symm.trans hok)⟩

theorem emptied_fits {d : Driver w} (h : d.pb.ring.head = d.pb.ring.tail) : d.RingFits := by
  have hused : d.pb.ring.used = 0 := by simp [Ring.used, Cursor.dist, h]
  rw [RingFits, hused]
  exact Nat.zero_le _

theorem streamingOn_negotiated {req : StreamRequest} (hfits : h.drv.RingFits) (hneg : NegotiatesPlayback req h.drv.pb.format) :
    Negotiated req h.streamingOn :=
  ⟨hfits, fun _ => hneg⟩

theorem startFormat_negotiated {req : StreamRequest} (hfits : h.drv.RingFits) (a : Answers w) {fmt : StreamFormat}
    (hsel : selectAltSetting a.config a.isHs req = .ok fmt) : Negotiated req (h.startFormat a fmt) := by
  have hstreaming := claimStreaming_drv h a fmt
  have hclaims : ((h.claimStreaming a fmt).1.claimControl a fmt).drv = h.drv := by rw [claimControl_drv, hstreaming]
  have hstored : ({ h.drv with pb := { h.drv.pb with format := fmt } } : Driver w).RingFits := hfits
  rw [← hclaims] at hstored
  unfold startFormat
  dsimp only
  split
  · refine .failed ?_ rfl
    rw [hstreaming]
    exact hfits
  split
  · exact .failed hstored rfl
  split
  · exact .failed hstored rfl
  · exact ⟨emptied_fits rfl, fun _ => .generic a.config a.isHs hsel⟩

theorem start_negotiated (hfits : h.drv.RingFits) (a : Answers w) (req : StreamRequest) : Negotiated req (h.start a req) := by
  unfold start
  dsimp only
  split
  · exact .failed hfits rfl
  split
  · exact .failed hfits rfl
  have hreconfigured := (reconfigure_steady { h with lastError := .ok } a).fits hfits
  split
  · exact .failed hreconfigured rfl
  split
  · exact .failed hreconfigured rfl
  · rename_i fmt hsel
    exact startFormat_negotiated hreconfigured a hsel

theorem startCapture_steady (h : Host w) (a : Answers w) :
    (h.startCapture a).1.drv.pb.format = h.drv.pb.format ∧ (h.drv.RingFits → (h.startCapture a).1.drv.RingFits) := by
  unfold startCapture
  split
  · exact ⟨rfl, id⟩
  rename_i capture _
  dsimp only
  split
  · exact ⟨rfl, id⟩
  split
  · exact ⟨rfl, id⟩
  split
  · exact ⟨rfl, id⟩
  · have hpump := startCapturePump_steady ((h.claimCapture capture).resetCapture capture) a
    exact ⟨hpump.playback, hpump.fits⟩

theorem startPumps_negotiated {req : StreamRequest} (hfits : h.drv.RingFits) (hneg : NegotiatesPlayback req h.drv.pb.format)
    (a : Answers w) : Negotiated req (h.startPumps a) := by
  unfold startPumps
  dsimp only
  obtain ⟨hformat₁, hfits₁⟩ := startCapture_steady h a
  replace hfits₁ := hfits₁ hfits
  generalize h.startCapture a = r₁ at *
  split
  · exact .failed ((stop_steady _ a).fits hfits₁) rfl
  have h₂ : Steady r₁.1.drv (if r₁.1.drv.implicitMode then r₁.1.primeLayout a else (r₁.1, true)).1.drv := by
    split
    · exact primeLayout_steady r₁.1 a
    · exact .refl _
  generalize (if r₁.1.drv.implicitMode then r₁.1.primeLayout a else (r₁.1, true)) = r₂ at *
  split
  · exact .failed ((stop_steady _ a).fits (h₂.fits hfits₁)) rfl
  have h₃ := h₂.trans (startIsoPump_steady r₂.1 a)
  generalize r₂.1.startIsoPump a = r₃ at *
  split
  · exact .failed ((stop_steady _ a).fits (h₃.fits hfits₁)) rfl
  · refine streamingOn_negotiated (h₃.fits hfits₁) ?_
    rw [h₃.playback, hformat₁]
    exact hneg

theorem line6Pumps_negotiated {req : StreamRequest} (a : Answers w) {playback capture : StreamFormat}
    (hneg : NegotiatesPlayback req playback) : Negotiated req (h.line6Pumps a playback capture) := by
  have hreset : (h.drv.line6Reset playback capture).RingFits := emptied_fits rfl
  have hfail (g : Host w) (code : StartError) (hg : Steady (h.drv.line6Reset playback capture) g.drv) :
      Negotiated req (g.line6Fail a code) :=
    .failed ((hg.trans (line6Fail_steady g a code)).fits hreset) rfl
  unfold line6Pumps
  dsimp only
  split
  · exact hfail _ _ (.refl _)
  split
  · exact hfail _ _ (.refl _)
  have h₁ : Steady (h.drv.line6Reset playback capture)
      (startCapturePump { h.withDriver (h.drv.line6Reset playback capture) with eventThread := true } a).1.drv :=
    startCapturePump_steady { h.withDriver (h.drv.line6Reset playback capture) with eventThread := true } a
  generalize startCapturePump { h.withDriver (h.drv.line6Reset playback capture) with eventThread := true } a = r₁ at *
  split
  · exact hfail _ _ h₁
  have h₂ := h₁.trans (primeLayout_steady r₁.1 a)
  generalize r₁.1.primeLayout a = r₂ at *
  split
  · exact hfail _ _ h₂
  have h₃ := h₂.trans (startIsoPump_steady r₂.1 a)
  generalize r₂.1.startIsoPump a = r₃ at *
  split
  · exact hfail _ _ h₃
  · refine streamingOn_negotiated (h₃.fits hreset) ?_
    rw [h₃.playback]
    exact hneg

theorem line6StartDuplex_negotiated {req : StreamRequest} (hfits : h.drv.RingFits) (hreq : line6Request req = true)
    (a : Answers w) : Negotiated req (h.line6StartDuplex a) := by
  have hfail (code : StartError) : Negotiated req (h.line6Fail a code) :=
    .failed ((line6Fail_steady h a code).fits hfits) rfl
  unfold line6StartDuplex
  split
  · exact .failed hfits rfl
  split
  · exact hfail _
  rename_i playback capture hsel
  have hneg : NegotiatesPlayback req playback := by
    split at hsel
    · exact .line6 a.config a.isHs capture (of_decide_eq_true hreq) hsel
    · cases hsel
  split
  · exact line6Pumps_negotiated a hneg
  split
  · exact hfail _
  · exact line6Pumps_negotiated a hneg

/-- A start that succeeds, by either profile, works with a format that meets the request. -/
theorem startDuplex_negotiated (hfits : h.drv.RingFits) (a : Answers w) (req : StreamRequest) :
    Negotiated req (h.startDuplex a req) := by
  unfold startDuplex
  split
  · split
    · exact line6StartDuplex_negotiated hfits ‹_› a
    · exact .failed hfits rfl
  obtain ⟨hfits', hneg⟩ := start_negotiated hfits a req
  dsimp only
  generalize h.start a req = r at *
  split
  · exact .failed hfits' rfl
  · rename_i hprepared
    exact startPumps_negotiated hfits' (hneg (by simpa using hprepared)) a

theorem startPlayback_steady (h : Host w) (a : PlaybackAnswers w) : Steady h.drv (h.startPlayback a).1.drv := by
  have hstarted : Steady h.drv (h.setStarted true).drv := .of_ring rfl rfl rfl
  have hprimed := hstarted.trans (primeOut_steady (List.range (h.setStarted true).drv.outCount) (h.setStarted true).drv)
  have hsubmitted := hprimed.trans (submitInitial_steady a (h.setStarted true).drv.initialXfers _)
  have hpump : Steady h.drv ((h.setStarted true).submitIsoPump a).1.drv := by
    unfold submitIsoPump
    dsimp only
    generalize submitInitial a (h.setStarted true).drv.initialXfers _ = r at *
    split
    · exact hstarted
    split
    · exact hstarted
    split
    · exact hsubmitted.trans (.of_ring rfl rfl rfl)
    · exact hsubmitted.trans (stopIsoPump_steady { h.setStarted true with drv := r.1, lastError := .isoPumpSubmitFailed } _)
  unfold startPlayback
  dsimp only
  split
  · exact .refl _
  split
  · exact hpump
  · exact hpump.trans (.of_ring rfl rfl rfl)

theorem close_fits (hfits : h.drv.RingFits) (a : Answers w) : (h.close a).drv.RingFits := by
  have hstopped := (stop_steady h a).fits hfits
  unfold close
  dsimp only
  split_ifs <;> exact hstopped

theorem open_fits (hfits : h.drv.RingFits) (a : Answers w) (o : OpenAnswers) (fileDescriptor driverCode : Int) :
    (h.open_ a o fileDescriptor driverCode).1.drv.RingFits := by
  have hstopped := (stop_steady h a).fits hfits
  have hclosed : (if (h.stop a).device then (h.stop a).closeDevice else h.stop a).drv.RingFits := by
    split <;> exact hstopped
  unfold open_
  dsimp only
  generalize (if (h.stop a).device then (h.stop a).closeDevice else h.stop a) = q at *
  split_ifs <;> assumption

theorem configureUserspaceBuffers_fits (hfits : h.drv.RingFits) (c : UserspaceBufferConfig) :
    (h.configureUserspaceBuffers c).1.drv.RingFits ∧
      (h.configureUserspaceBuffers c).1.drv.pb.format = h.drv.pb.format ∧
      (h.configureUserspaceBuffers c).1.drv.cap.format = h.drv.cap.format := by
  unfold configureUserspaceBuffers
  split
  · rename_i d hd
    obtain ⟨pb, hpb, rfl⟩ := Option.map_eq_some_iff.1 hd
    unfold Playback.configureUserspaceBuffers at hpb
    split at hpb
    · cases hpb
    split at hpb
    · cases hpb
    obtain ⟨z, -, rfl⟩ := Option.map_eq_some_iff.1 hpb
    exact ⟨emptied_fits rfl, rfl, rfl⟩
  · exact ⟨hfits, rfl, rfl⟩

theorem setUserspaceBufferConfig_steady (h : Host w) (frames : Int) (c : UserspaceBufferConfig) (periodMultiplier : Int) :
    Steady h.drv (h.setUserspaceBufferConfig frames c periodMultiplier).drv := by
  unfold setUserspaceBufferConfig Startup.setUserspaceBufferConfig
  split <;> exact .of_ring rfl rfl rfl

end Host

/-- The depth of the request is negotiated exactly. -/
theorem NegotiatesPlayback.bitsPerSample {req : StreamRequest} {f : StreamFormat} (h : NegotiatesPlayback req f) :
    f.bitsPerSample = req.bitsPerSample.toNat := by
  cases h with
  | generic config isHs h =>
    unfold selectAltSetting at h
    split at h
    · cases h
    split at h
    · cases h
    rename_i t _
    obtain ⟨alt, s, iso, -, rfl⟩ := Topology.select_ok h
    rfl
  | line6 config isHs capture hreq h =>
    obtain ⟨⟨chosen, outEp, inEp⟩, -, he⟩ := Option.map_eq_some_iff.1 h
    cases he
    rw [hreq.2.1]
    rfl

end UacDriver

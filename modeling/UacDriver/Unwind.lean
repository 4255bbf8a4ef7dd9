import UacDriver.Buffers
import UacDriver.FormatAgreement
import UacDriver.LedgerStart
import UacDriver.TransferCount

/-!
# A start that fails unwinds

A `startDuplex` from a stopped driver can fail at more than a dozen places. Behind `start` every failure runs through
`stop`, and the Line6 path through its `fail`, and both give back everything as long as libusb completes what was
cancelled. Inside `start` itself the streaming interface has been claimed when the alternate setting or the clock is
refused, and there the call just returns.

Until the output is submitted the rotation of transfers is over no OUT transfer at all: `rotation.Ok ∅`.
-/

namespace UacDriver

open Runs

namespace Driver

variable {w : Nat} {d d' d'' : Driver w}

/-! ### Before the output is submitted -/

/-- `transfers_.size()` and `feedbackTransfers_.size()`. -/
def counts (d : Driver w) : Nat × Nat := (d.outCount, d.feedbackCount)

/-- From `d` to `d'` other threads have run and no OUT transfer was about: nothing new was submitted. -/
structure Waited (d d' : Driver w) : Prop where
  ok : d'.rotation.Ok ∅
  owned : d'.usb.owned ⊆ d.usb.owned
  side : d'.pb.eventSide = d.pb.eventSide
  counts : d'.counts = d.counts

namespace Waited

theorem refl (h : d.rotation.Ok ∅) : Waited d d := ⟨h, subset_rfl, rfl, rfl⟩

theorem trans (h : Waited d d') (h' : Waited d' d'') : Waited d d'' :=
  ⟨h'.ok, h'.owned.trans h.owned, h'.side.trans h.side, h'.counts.trans h.counts⟩

theorem pending_nil (h : d.rotation.Ok ∅) : d.pending = [] :=
  List.eq_nil_iff_forall_not_mem.2 fun i hi => Finset.notMem_empty i (h.pending_mem i hi)

/-- What the callback of `x` leaves: `x` is given back or submitted again, nothing else moves on the playback side. -/
structure Served (x : Xfer) (d d' : Driver w) : Prop where
  owned : d'.usb.owned ⊆ insert x d.usb.owned
  pb : d'.pb = d.pb
  counts : d'.counts = d.counts

theorem onFeedback {k : Nat} (x : Transfer) (ok : Xfer → Bool) : Served (.feedback k) d (d.onFeedback k x ok) := by
  have hsame : (d.noteFeedback x).usb = d.usb ∧ (d.noteFeedback x).pb = d.pb ∧ (d.noteFeedback x).counts = d.counts := by
    unfold noteFeedback
    split
    · split
      · unfold acceptFeedback
        dsimp only
        split <;> exact ⟨rfl, rfl, rfl⟩
      · exact ⟨rfl, rfl, rfl⟩
    · exact ⟨rfl, rfl, rfl⟩
  obtain ⟨husb, hpb, hcounts⟩ := hsame
  refine onFeedback_rule (P := Served (.feedback k) d) ⟨Finset.subset_insert _ _, rfl, rfl⟩
    ⟨Finset.subset_insert _ _, rfl, rfl⟩ (fun _ _ => ⟨?_, hpb, hcounts⟩) (fun _ _ => ⟨?_, hpb, hcounts⟩)
  · show insert _ (d.noteFeedback x).usb.owned ⊆ _
    rw [husb]
  · show (d.noteFeedback x).usb.owned ⊆ _
    rw [husb]
    exact Finset.subset_insert _ _

theorem onCapture {j : Nat} (hpending : d.pending = []) (x : Transfer) (ok : Xfer → Bool) :
    Served (.capture j) d (d.onCapture j x ok) := by
  have hnone : (d.receiveCapture x).submitPendingImplicitTransfers ok = d.receiveCapture x :=
    Idle.submitPendingImplicitTransfers_nil (d := d.receiveCapture x) hpending ok
  refine onCapture_rule (P := Served (.capture j) d) (fun _ => ⟨Finset.subset_insert _ _, rfl, rfl⟩)
    (fun _ => ⟨Finset.subset_insert _ _, rfl, rfl⟩) (fun _ => ?_) (fun _ _ => ?_) (fun _ _ => ?_)
  · rw [hnone]
    exact ⟨Finset.subset_insert _ _, rfl, rfl⟩
  · rw [hnone]
    exact ⟨subset_rfl, rfl, rfl⟩
  · rw [hnone]
    exact ⟨Finset.subset_insert _ _, rfl, rfl⟩

theorem served {x : Xfer} (hx : x ∈ d.usb.owned) (h : Served x (d.release x) d') (hok : d'.rotation.Ok ∅) : Waited d d' :=
  ⟨hok, h.owned.trans (Finset.insert_erase hx).subset, congrArg Playback.eventSide h.pb, h.counts⟩

theorem step (h : d.rotation.Ok ∅) (a : DriverAct) : Waited d (d.step a) := by
  have hok : (d.step a).rotation.Ok ∅ := step_ok (by simp) h a
  have hpending := pending_nil h
  cases a with
  | outDone i status results ok =>
    have hi : .out i ∉ d.usb.owned := fun hi => Finset.notMem_empty i (h.owned_mem i hi)
    simp only [Driver.step, if_neg hi]
    exact refl h
  | feedbackDone k x ok =>
    by_cases hk : .feedback k ∈ d.usb.owned
    · simp only [Driver.step, if_pos hk] at hok ⊢
      exact served hk (onFeedback x ok) hok
    · simp only [Driver.step, if_neg hk]
      exact refl h
  | captureDone j x ok =>
    by_cases hj : .capture j ∈ d.usb.owned
    · simp only [Driver.step, if_pos hj] at hok ⊢
      exact served hj (onCapture (d := d.release (.capture j)) hpending x ok) hok
    · simp only [Driver.step, if_neg hj]
      exact refl h
  | writePcm data frames => exact ⟨hok, subset_rfl, Playback.writePcm_eventSide data frames, rfl⟩
  | submitQuantum accepting policy frames packed charge =>
    exact ⟨hok, subset_rfl, Playback.submitQuantum_eventSide _ _ _ _ _ _, rfl⟩
  | takePlaybackCredit frames => exact ⟨hok, subset_rfl, Playback.takePlaybackCredit_eventSide frames, rfl⟩
  | chargePlaybackCredit frames => exact ⟨hok, subset_rfl, Playback.chargePlaybackCredit_eventSide frames, rfl⟩
  | _ => exact ⟨hok, subset_rfl, rfl, rfl⟩

theorem run (h : d.rotation.Ok ∅) (as : List DriverAct) : Waited d (Runs.run Driver.step d as) :=
  run_invariant (I := Waited d) (fun _ a hw => hw.trans (step hw.ok a)) (refl h) as

end Waited

/-- Both counters at zero: libusb owns nothing. -/
theorem owned_eq_empty {L : Finset Nat} (h : d.rotation.Ok L) (hout : d.inflight = 0) (hcapture : d.captureInflight = 0) :
    d.usb.owned = ∅ := by
  have hplayback : d.rotation.playbackOwned = ∅ :=
    Finset.card_eq_zero.1 (Int.ofNat_eq_zero.1 (h.inflight.symm.trans hout))
  have hcaptures : d.rotation.captureOwned = ∅ :=
    Finset.card_eq_zero.1 (Int.ofNat_eq_zero.1 (h.captureInflight.symm.trans hcapture))
  refine Finset.eq_empty_of_forall_notMem fun x hx => ?_
  cases hp : x.isPlayback with
  | true => exact Finset.notMem_empty x (hplayback ▸ Finset.mem_filter.2 ⟨hx, hp⟩)
  | false => exact Finset.notMem_empty x (hcaptures ▸ Finset.mem_filter.2 ⟨hx, by rw [hp]; rfl⟩)

theorem inflight_of_owned {L L' : Finset Nat} (h : d.rotation.Ok L) (h' : d'.rotation.Ok L')
    (howned : d'.usb.owned ⊆ d.usb.owned) (hout : d.inflight = 0) : d'.inflight = 0 := by
  have hplayback : d.rotation.playbackOwned = ∅ :=
    Finset.card_eq_zero.1 (Int.ofNat_eq_zero.1 (h.inflight.symm.trans hout))
  have hnone : d'.rotation.playbackOwned = ∅ :=
    Finset.subset_empty.1 (hplayback ▸ Finset.filter_subset_filter _ howned)
  refine h'.inflight.trans ?_
  rw [hnone]
  rfl

theorem stopRequested_run (h : d.stopRequested = true) (as : List DriverAct) : (run step d as).stopRequested = true :=
  run_invariant (I := fun d' : Driver w => d'.stopRequested = true) (fun _ a hs => (step_of_stop hs a).1) h as

theorem requested_ok {L : Finset Nat} (h : d.rotation.Ok L) : ({ d with stopRequested := true } : Driver w).rotation.Ok L :=
  ⟨⟨h.pending_nodup, h.pending_free, h.pending_mem, h.owned_mem, fun _ => rfl⟩, h.inflight, h.captureInflight⟩

/-- Nothing submitted, nothing pending, nothing counted. -/
theorem ok_of_empty (howned : d.usb.owned = ∅) (hpending : d.pending = []) (hout : d.inflight = 0)
    (hcapture : d.captureInflight = 0) (hfailed : d.transportFailed = true → d.stopRequested = true) : d.rotation.Ok ∅ := by
  refine ⟨⟨?_, fun i hi => ?_, fun i hi => ?_, fun i hi => ?_, hfailed⟩, ?_, ?_⟩
  · show d.pending.Nodup
    rw [hpending]
    exact List.nodup_nil
  · exact absurd (hpending ▸ hi : i ∈ []) List.not_mem_nil
  · exact absurd (hpending ▸ hi : i ∈ []) List.not_mem_nil
  · exact absurd (howned ▸ hi : Xfer.out i ∈ (∅ : Finset Xfer)) (Finset.notMem_empty _)
  · rw [Rotation.playbackOwned, rotation, howned]
    exact hout
  · rw [Rotation.captureOwned, rotation, howned]
    exact hcapture

/-- The rotation is empty once no OUT transfer is in flight and the pending ones are freed. -/
theorem freeOut_ok {L : Finset Nat} (h : d.rotation.Ok L) (hout : d.inflight = 0) : d.freeOut.rotation.Ok ∅ := by
  have hplayback : d.rotation.playbackOwned = ∅ :=
    Finset.card_eq_zero.1 (Int.ofNat_eq_zero.1 (h.inflight.symm.trans hout))
  refine ⟨⟨List.nodup_nil, nofun, nofun, fun i hi => ?_, h.failed_stop⟩, h.inflight, h.captureInflight⟩
  exact absurd (hplayback ▸ Finset.mem_filter.2 ⟨hi, rfl⟩) (Finset.notMem_empty (Xfer.out i))

theorem abandoned_ok (h : d.rotation.Ok ∅) : d.freeOut.rotation.Ok ∅ :=
  ⟨⟨List.nodup_nil, nofun, nofun, h.owned_mem, h.failed_stop⟩, h.inflight, h.captureInflight⟩

/-- Neither streaming nor capturing. -/
def Off (d : Driver w) : Prop := d.streaming = false ∧ d.cap.captureActive = false

/-- Behind a stop every completion retires its transfer, so neither is turned on again. -/
theorem off_step (hstop : d.stopRequested = true) (h : d.Off) (a : DriverAct) : (d.step a).Off := by
  cases a with
  | outDone i status results ok =>
    simp only [step]
    split
    · have hretires : (d.deliverOut i status results).retires i = true := by
        simp [retires, deliverOut, release, hstop]
      rw [onIso, if_pos hretires]
      exact h
    · exact h
  | feedbackDone k x ok =>
    simp only [step]
    split
    · rw [onFeedback, if_pos (.inr hstop)]
      exact h
    · exact h
  | captureDone j x ok =>
    simp only [step]
    split
    · rw [onCapture, if_pos (by simpa [release] using h.2)]
      exact h
    · exact h
  | requestStop => exact ⟨rfl, rfl⟩
  | readCapturePcm frames => exact ⟨h.1, (Capture.readCapturePcm_active ..).trans h.2⟩
  | _ => exact h

theorem off_run (hstop : d.stopRequested = true) (h : d.Off) (as : List DriverAct) : (run step d as).Off :=
  (run_invariant (I := fun d' : Driver w => d'.stopRequested = true ∧ d'.Off)
    (fun _ a hd => ⟨(step_of_stop hd.1 a).1, off_step hd.1 hd.2 a⟩) ⟨hstop, h⟩ as).2

/-- The submit loop of the capture pump, over transfers that libusb does not own yet. -/
theorem submitCaptures_ok (lengths : List Nat) (a : Answers w) (js : List Nat) (hjs : js.Nodup) {d : Driver w}
    (h : d.rotation.Ok ∅) (hfree : ∀ j ∈ js, .capture j ∉ d.usb.owned) :
    let r := submitCaptures lengths a js d
    r.1.rotation.Ok ∅ ∧ r.1.pb.eventSide = d.pb.eventSide ∧ (r.2 = false → r.1.stopRequested = true) := by
  induction js generalizing d with
  | nil => exact ⟨h, rfl, nofun⟩
  | cons j js ih =>
    obtain ⟨hj, hnodup⟩ := List.nodup_cons.1 hjs
    have hw := Waited.run h (a.others (.captureSubmit j) d)
    rw [submitCaptures]
    dsimp only
    generalize run step d (a.others (.captureSubmit j) d) = d₁ at hw
    have hnew : .capture j ∉ d₁.usb.owned := fun hmem => hfree j List.mem_cons_self (hw.owned hmem)
    split
    · have hsubmitted : (({ d₁ with captureInflight := d₁.captureInflight + 1 } : Driver w).submit (.capture j) true
          lengths).rotation.Ok ∅ := by
        have hentered := (hw.ok.enter hnew (fun _ he => by cases he)).resubmit
        simp only [Rotation.enter, Xfer.isPlayback, Bool.false_eq_true, if_false, Int.add_zero] at hentered
        exact hentered
      obtain ⟨hok, hside, hstop⟩ := ih hnodup hsubmitted fun i hi hmem => by
        rcases Finset.mem_insert.1 hmem with he | hmem
        · exact hj (Xfer.capture.inj he ▸ hi)
        · exact hfree i (List.mem_cons_of_mem j hi) (hw.owned hmem)
      exact ⟨hok, hside.trans hw.side, hstop⟩
    · refine ⟨?_, hw.side, fun _ => rfl⟩
      exact ⟨⟨hw.ok.pending_nodup, hw.ok.pending_free, hw.ok.pending_mem, hw.ok.owned_mem, fun _ => rfl⟩, hw.ok.inflight,
        hw.ok.captureInflight⟩

end Driver

/-- Cancelled transfers retire within the window of a teardown: from every driver whose counters count what libusb
owns, what libusb delivers while a teardown waits brings the counter it waits for to zero. -/
structure Answers.Retires {w : Nat} (a : Answers w) : Prop where
  out : ∀ (d : Driver w) (L : Finset Nat), L.card ≤ kMaxTransferCount → d.rotation.Ok L →
    (run Driver.step { d with stopRequested := true } (a.others .stopOut d)).inflight = 0
  capture : ∀ (d : Driver w) (L : Finset Nat), L.card ≤ kMaxTransferCount → d.rotation.Ok L → d.stopRequested = true →
    (run Driver.step d (a.others .stopCapture d)).captureInflight = 0

namespace Host

variable {w : Nat} {h : Host w} {a : Answers w}

/-- The interfaces that the flags say are claimed. -/
def held (h : Host w) : Finset Nat :=
  (if h.interfaceClaimed then {h.drv.pb.format.interfaceNumber} else ∅) ∪
    (if h.controlInterfaceClaimed then {h.claimedControlIface} else ∅) ∪
    (if h.captureInterfaceClaimed then {h.claimedCaptureIface} else ∅)

/-- A start in progress, before the output is submitted. -/
structure Starting (h : Host w) : Prop where
  ok : h.drv.rotation.Ok ∅
  device : h.device = true
  claimed : h.interfaceClaimed = true
  claims : h.claims ⊆ h.held

/-- Nothing is left claimed, allocated, in flight or running. -/
structure Clean (h : Host w) : Prop where
  claims : h.claims = ∅
  streaming : h.interfaceClaimed = false
  control : h.controlInterfaceClaimed = false
  capture : h.captureInterfaceClaimed = false
  outs : h.drv.outCount = 0 ∧ h.drv.feedbackCount = 0
  captures : h.captureCount = 0
  owned : h.drv.usb.owned = ∅
  inflight : h.drv.inflight = 0 ∧ h.drv.captureInflight = 0
  eventThread : h.eventThread = false

/-- A driver that is fully stopped: constructed, or behind a teardown that was not deferred. -/
structure Stopped (h : Host w) : Prop extends Clean h where
  notStreaming : h.drv.streaming = false
  notCapturing : h.drv.cap.captureActive = false
  pending : h.drv.pending = []
  queued : h.drv.pb.queuedOutFrames = 0
  failedStop : h.drv.transportFailed = true → h.drv.stopRequested = true

/-- Both pumps stopped: everything is given back but the claims. -/
structure Idled (h r : Host w) : Prop where
  outs : r.drv.outCount = 0 ∧ r.drv.feedbackCount = 0
  captures : r.captureCount = 0
  owned : r.drv.usb.owned = ∅
  inflight : r.drv.inflight = 0 ∧ r.drv.captureInflight = 0
  pending : r.drv.pending = []
  queued : r.drv.pb.queuedOutFrames = 0
  stopRequested : r.drv.stopRequested = true
  off : h.drv.Off → r.drv.Off
  eventThread : r.eventThread = false
  device : r.device = h.device
  claims : r.claims = h.claims
  held : r.held = h.held
  flags : (r.interfaceClaimed, r.controlInterfaceClaimed, r.captureInterfaceClaimed) =
    (h.interfaceClaimed, h.controlInterfaceClaimed, h.captureInterfaceClaimed)

theorem stopPumps_idled {L : Finset Nat} (hL : L.card ≤ kMaxTransferCount) (hretire : a.Retires)
    (hok : h.drv.rotation.Ok L) :
    (h.stopPumps a .stopOut .stopCapture).2 = true ∧ Idled h (h.stopPumps a .stopOut .stopCapture).1 := by
  -- the output half
  have hin := hretire.out h.drv L hL hok
  have hok₁ := run_invariant (I := fun d : Driver w => d.rotation.Ok L) (fun _ act hd => Driver.step_ok hL hd act)
    (Driver.requested_ok hok) (a.others .stopOut h.drv)
  have hstop := Driver.stopRequested_run (d := { h.drv with stopRequested := true }) rfl (a.others .stopOut h.drv)
  have hoff (ho : h.drv.Off) := Driver.off_run (d := { h.drv with stopRequested := true }) rfl ho (a.others .stopOut h.drv)
  have hformat : (run Driver.step { h.drv with stopRequested := true } (a.others .stopOut h.drv)).pb.format =
      h.drv.pb.format := congrArg (·.2.2.2.1) (Driver.run_shape (a.others .stopOut h.drv))
  unfold stopPumps stopIsoPump Driver.stopIsoPump
  dsimp only
  generalize run Driver.step { h.drv with stopRequested := true } (a.others .stopOut h.drv) = d₁ at *
  rw [if_neg (not_not.2 hin)]
  dsimp only
  rw [if_pos rfl]
  -- the capture half
  have hfreed := Driver.freeOut_ok hok₁ hin
  have hcapture := hretire.capture d₁.freeOut ∅ (by simp) hfreed hstop
  have hw := Driver.Waited.run hfreed (a.others .stopCapture d₁.freeOut)
  have hstop' := Driver.stopRequested_run (d := d₁.freeOut) hstop (a.others .stopCapture d₁.freeOut)
  have hoff' (ho : d₁.Off) := Driver.off_run (d := d₁.freeOut) hstop ho (a.others .stopCapture d₁.freeOut)
  unfold stopCapturePump Driver.stopCapturePump
  dsimp only
  generalize run Driver.step d₁.freeOut (a.others .stopCapture d₁.freeOut) = d₂ at *
  rw [if_neg (not_not.2 hcapture)]
  dsimp only
  rw [if_pos rfl]
  have hout : d₂.inflight = 0 := Driver.inflight_of_owned hfreed hw.ok hw.owned hin
  have hcounts : d₂.counts = (0, 0) := hw.counts
  have hside : d₂.pb.eventSide = (d₁.pb.format, 0, false) := hw.side
  refine ⟨rfl, ⟨congrArg Prod.fst hcounts, congrArg Prod.snd hcounts⟩, rfl, Driver.owned_eq_empty hw.ok hout hcapture,
    ⟨hout, hcapture⟩, Driver.Waited.pending_nil hw.ok, congrArg (·.2.1) hside, hstop', fun ho => hoff' (hoff ho), rfl, rfl,
    rfl, ?_, rfl⟩
  have hsame : d₂.pb.format = h.drv.pb.format := (congrArg Prod.fst hside).trans hformat
  show _ ∪ _ ∪ _ = _ ∪ _ ∪ _
  simp only [Driver.freeCapture, hsame]

/-! ### The releases -/

/-- What a release leaves alone. -/
def rest (h : Host w) : Driver w × Bool × Nat × Bool := (h.drv, h.device, h.captureCount, h.eventThread)

theorem releaseStreaming_spec (hdevice : h.device = true) :
    let r := h.releaseStreaming
    r.claims = h.claims \ (if h.interfaceClaimed then {h.drv.pb.format.interfaceNumber} else ∅) ∧
    r.interfaceClaimed = false ∧ r.controlInterfaceClaimed = h.controlInterfaceClaimed ∧
    r.captureInterfaceClaimed = h.captureInterfaceClaimed ∧ r.claimedControlIface = h.claimedControlIface ∧
    r.claimedCaptureIface = h.claimedCaptureIface ∧ r.rest = h.rest := by
  unfold releaseStreaming
  cases hclaimed : h.interfaceClaimed with
  | true => simp [hdevice, Finset.erase_eq, rest]
  | false => simp [hclaimed]

theorem releaseControl_spec (hdevice : h.device = true) :
    let r := h.releaseControl
    r.claims = h.claims \ (if h.controlInterfaceClaimed then {h.claimedControlIface} else ∅) ∧
    r.controlInterfaceClaimed = false ∧ r.interfaceClaimed = h.interfaceClaimed ∧
    r.captureInterfaceClaimed = h.captureInterfaceClaimed ∧ r.claimedCaptureIface = h.claimedCaptureIface ∧
    r.rest = h.rest := by
  unfold releaseControl
  cases hclaimed : h.controlInterfaceClaimed with
  | true => simp [hdevice, Finset.erase_eq, rest]
  | false => simp [hclaimed]

theorem releaseCapture_spec (hdevice : h.device = true) :
    let r := h.releaseCapture
    r.claims = h.claims \ (if h.captureInterfaceClaimed then {h.claimedCaptureIface} else ∅) ∧
    r.captureInterfaceClaimed = false ∧ r.interfaceClaimed = h.interfaceClaimed ∧
    r.controlInterfaceClaimed = h.controlInterfaceClaimed ∧ r.rest = h.rest := by
  unfold releaseCapture
  cases hclaimed : h.captureInterfaceClaimed with
  | true => simp [hdevice, Finset.erase_eq, rest]
  | false => simp [hclaimed]

/-- All three releases give up everything that was held. -/
theorem released (hdevice : h.device = true) (hclaims : h.claims ⊆ h.held) :
    let r := h.releaseStreaming.releaseControl.releaseCapture
    r.claims = ∅ ∧ r.interfaceClaimed = false ∧ r.controlInterfaceClaimed = false ∧ r.captureInterfaceClaimed = false ∧
    r.rest = h.rest := by
  obtain ⟨hc₁, hs₁, hk₁, hp₁, hki₁, hpi₁, hr₁⟩ := releaseStreaming_spec hdevice
  have hdevice₁ : h.releaseStreaming.device = true := (congrArg (·.2.1) hr₁).trans hdevice
  generalize h.releaseStreaming = h₁ at *
  obtain ⟨hc₂, hk₂, hs₂, hp₂, hpi₂, hr₂⟩ := releaseControl_spec hdevice₁
  have hdevice₂ : h₁.releaseControl.device = true := (congrArg (·.2.1) hr₂).trans hdevice₁
  generalize h₁.releaseControl = h₂ at *
  obtain ⟨hc₃, hp₃, hs₃, hk₃, hr₃⟩ := releaseCapture_spec hdevice₂
  generalize h₂.releaseCapture = h₃ at *
  refine ⟨?_, by rw [hs₃, hs₂, hs₁], by rw [hk₃, hk₂], hp₃, by rw [hr₃, hr₂, hr₁]⟩
  rw [hc₃, hc₂, hc₁, hp₂, hp₁, hpi₂, hpi₁, hk₁, hki₁]
  refine Finset.eq_empty_of_forall_notMem fun x hx => ?_
  simp only [Finset.mem_sdiff] at hx
  obtain ⟨⟨⟨hx, hs⟩, hk⟩, hp⟩ := hx
  rcases Finset.mem_union.1 (hclaims hx) with hx | hx
  · rcases Finset.mem_union.1 hx with hx | hx
    · exact hs hx
    · exact hk hx
  · exact hp hx

/-- A `stop` of whatever runs or is claimed leaves the driver fully stopped. -/
theorem stop_stopped {L : Finset Nat} (hL : L.card ≤ kMaxTransferCount) (hretire : a.Retires) (hok : h.drv.rotation.Ok L)
    (hbusy : h.nothingToStop = false) (hdevice : h.device = true) (hclaims : h.claims ⊆ h.held) : (h.stop a).Stopped := by
  have hrequested : h.drv.requestStop.rotation.Ok L :=
    ⟨⟨hok.pending_nodup, hok.pending_free, hok.pending_mem, hok.owned_mem, fun _ => rfl⟩, hok.inflight,
      hok.captureInflight⟩
  obtain ⟨hstopped, hidled⟩ := stopPumps_idled (h := h.withDriver h.drv.requestStop) hL hretire hrequested
  unfold stop
  rw [hbusy, if_neg Bool.false_ne_true]
  dsimp only
  generalize (h.withDriver h.drv.requestStop).stopPumps a .stopOut .stopCapture = r at *
  rw [hstopped, if_pos rfl]
  have hopen : r.1.device = true := hidled.device.trans hdevice
  have hheld : r.1.claims ⊆ r.1.held := by
    rw [hidled.claims, hidled.held]
    exact hclaims
  obtain ⟨hclaims', hs, hk, hp, hrest⟩ := released hopen hheld
  generalize r.1.releaseStreaming.releaseControl.releaseCapture = q at *
  have hdrv : q.drv = r.1.drv := congrArg (·.1) hrest
  have hoff : r.1.drv.Off := hidled.off ⟨rfl, rfl⟩
  have hclean : (q.withDriver r.1.drv.stopReset).Stopped :=
    ⟨⟨hclaims', hs, hk, hp, hidled.outs, (congrArg (·.2.2.1) hrest).trans hidled.captures, hidled.owned, hidled.inflight,
      (congrArg (·.2.2.2) hrest).trans hidled.eventThread⟩, hoff.1, hoff.2, hidled.pending, hidled.queued,
      fun _ => hidled.stopRequested⟩
  rw [hdrv]
  exact hclean

theorem stop_clean (hretire : a.Retires) (h₀ : h.Starting) : (h.stop a).Clean := by
  have hbusy : h.nothingToStop = false := by simp [nothingToStop, h₀.claimed]
  exact (stop_stopped (by simp) hretire h₀.ok hbusy h₀.device h₀.claims).toClean

/-! ### The stages of a start -/

/-- What `Starting` reads of the host besides the driver. -/
def side (h : Host w) : Bool × Finset Nat × Bool × Bool × Nat × Bool × Nat :=
  (h.device, h.claims, h.interfaceClaimed, h.controlInterfaceClaimed, h.claimedControlIface, h.captureInterfaceClaimed,
    h.claimedCaptureIface)

theorem Starting.congr {h' : Host w} (h₀ : h.Starting) (hside : h'.side = h.side) (hok : h'.drv.rotation.Ok ∅)
    (hformat : h'.drv.pb.format = h.drv.pb.format) : h'.Starting := by
  simp only [side, Prod.mk.injEq] at hside
  obtain ⟨hdevice, hclaims, hs, hk, hki, hp, hpi⟩ := hside
  refine ⟨hok, hdevice.trans h₀.device, hs.trans h₀.claimed, ?_⟩
  have hheld : h'.held = h.held := by
    simp only [held, hs, hk, hki, hp, hpi, hformat]
  rw [hclaims, hheld]
  exact h₀.claims

theorem Starting.stopCapturePump (h₀ : h.Starting) (served : List DriverAct) : (h.stopCapturePump served).1.Starting := by
  have hw := Driver.Waited.run h₀.ok served
  have hformat : (run Driver.step h.drv served).pb.format = h.drv.pb.format := congrArg Prod.fst hw.side
  unfold Host.stopCapturePump Driver.stopCapturePump
  dsimp only
  generalize run Driver.step h.drv served = d at *
  by_cases hin : d.captureInflight ≠ 0
  · rw [if_pos hin]
    exact h₀.congr rfl hw.ok hformat
  · rw [if_neg hin]
    exact h₀.congr rfl hw.ok hformat

theorem Starting.err (h₀ : h.Starting) (code : StartError) : (h.err code).1.Starting := h₀.congr rfl h₀.ok rfl

theorem Starting.withDriver (h₀ : h.Starting) {d : Driver w} (hok : d.rotation.Ok ∅)
    (hformat : d.pb.format = h.drv.pb.format) : (h.withDriver d).Starting := h₀.congr rfl hok hformat

theorem Starting.allocateCaptures (h₀ : h.Starting) (hfree : ∀ j, .capture j ∉ h.drv.usb.owned) (packets : Nat)
    (a : Answers w) : (h.allocateCaptures packets a).1.Starting := by
  unfold Host.allocateCaptures
  dsimp only
  have hcount : Starting { h with captureCount :=
      ((List.range h.drv.geometry.transferCount).takeWhile a.captureAlloc).length } := h₀.congr rfl h₀.ok rfl
  generalize ((List.range h.drv.geometry.transferCount).takeWhile a.captureAlloc).length = allocated at *
  split
  · exact (hcount.stopCapturePump _).err _
  have hactive : h.drv.activateCapture.rotation.Ok ∅ := ⟨⟨h₀.ok.pending_nodup, h₀.ok.pending_free, h₀.ok.pending_mem,
    h₀.ok.owned_mem, h₀.ok.failed_stop⟩, h₀.ok.inflight, h₀.ok.captureInflight⟩
  obtain ⟨hok, hside, -⟩ := Driver.submitCaptures_ok (List.replicate packets a.mps.toNat) a
    (List.range h.drv.geometry.transferCount) List.nodup_range hactive fun j _ => hfree j
  generalize Driver.submitCaptures _ a _ h.drv.activateCapture = r at *
  have hsubmitted := hcount.withDriver hok (congrArg Prod.fst hside)
  split
  · exact hsubmitted
  · exact (hsubmitted.stopCapturePump _).err _

theorem Starting.startCapturePump (h₀ : h.Starting) (hfree : ∀ j, .capture j ∉ h.drv.usb.owned) (a : Answers w) :
    (h.startCapturePump a).1.Starting := by
  have hpackets (packets : Nat) : (h.withDriver (h.drv.withCapturePackets packets)).Starting := h₀.withDriver h₀.ok rfl
  unfold Host.startCapturePump
  dsimp only
  split
  · exact h₀.err _
  split
  · exact (hpackets _).err _
  · apply Starting.allocateCaptures
    · exact (hpackets _).withDriver h₀.ok rfl
    · exact hfree

theorem Starting.startCapture (h₀ : h.Starting) (hnone : h.captureInterfaceClaimed = false) (howned : h.drv.usb.owned = ∅)
    (a : Answers w) : (h.startCapture a).1.Starting := by
  unfold Host.startCapture
  split
  · exact h₀.err _
  rename_i capture _
  split
  · exact h₀.err _
  split
  · exact h₀.err _
  have hclaimed : (h.claimCapture capture).Starting := by
    refine ⟨h₀.ok, h₀.device, h₀.claimed, Finset.insert_subset ?_ (h₀.claims.trans ?_)⟩
    · exact Finset.mem_union_right _ (Finset.mem_singleton_self _)
    · unfold held
      rw [hnone, if_neg Bool.false_ne_true, Finset.union_empty]
      exact Finset.subset_union_left
  have hreset : ((h.claimCapture capture).resetCapture capture).Starting := hclaimed.congr rfl h₀.ok rfl
  split
  · exact hclaimed.err _
  · refine hreset.startCapturePump (fun j hj => ?_) a
    exact Finset.notMem_empty _ (howned ▸ hj)

theorem Starting.primeLayout (h₀ : h.Starting) (a : Answers w) : (h.primeLayout a).1.Starting := by
  have hwaiting := Driver.Waited.step h₀.ok .registerCapture
  have hserved := hwaiting.trans (Driver.Waited.run hwaiting.ok (a.others .priming (h.drv.step .registerCapture)))
  have hw := hserved.trans (Driver.Waited.step hserved.ok .unregisterCapture)
  unfold Host.primeLayout
  dsimp only
  generalize (run Driver.step (h.drv.step .registerCapture) (a.others .priming (h.drv.step .registerCapture))).step
    .unregisterCapture = d at *
  have hprimed : Starting { h with eventThread := true, drv := d } := h₀.congr rfl hw.ok (congrArg Prod.fst hw.side)
  split
  · exact hprimed.err _
  · exact hprimed

/-- A pump that could not be prepared. -/
theorem Starting.startIsoPump (h₀ : h.Starting) {a : Answers w} (hfailed : (h.startIsoPump a).2 = false) :
    (h.startIsoPump a).1.Starting := by
  have habandoned : (h.drv.abandonIsoPump a.maxPacket a.alloc a.allocated).rotation.Ok ∅ ∧
      (h.drv.abandonIsoPump a.maxPacket a.alloc a.allocated).pb.format = h.drv.pb.format := by
    have hstop := Driver.abandoned_ok (Driver.requested_ok h₀.ok)
    have hkeep := Driver.abandoned_ok h₀.ok
    rcases h.drv.abandonIsoPump_cases a.maxPacket a.alloc a.allocated with ⟨_, _, he, -⟩ | ⟨_, _, _, _, _, he, -⟩
    · rw [he]
      exact ⟨hkeep, rfl⟩
    · rw [he]
      exact ⟨hstop, rfl⟩
  unfold Host.startIsoPump at hfailed ⊢
  split at hfailed
  · cases hfailed
  · exact h₀.congr rfl habandoned.1 habandoned.2

/-- Every failure behind `start` is unwound by `stop`. -/
theorem startPumps_clean (hretire : a.Retires) (h₀ : h.Starting) (hnone : h.captureInterfaceClaimed = false)
    (howned : h.drv.usb.owned = ∅) (hfailed : (h.startPumps a).2 = false) : (h.startPumps a).1.Clean := by
  have h₁ := h₀.startCapture hnone howned a
  unfold startPumps at hfailed ⊢
  dsimp only at hfailed ⊢
  generalize h.startCapture a = r₁ at *
  split
  · exact stop_clean hretire h₁
  rename_i hstarted
  rw [if_neg hstarted] at hfailed
  have h₂ : (if r₁.1.drv.implicitMode then r₁.1.primeLayout a else (r₁.1, true)).1.Starting := by
    split
    · exact h₁.primeLayout a
    · exact h₁
  generalize (if r₁.1.drv.implicitMode then r₁.1.primeLayout a else (r₁.1, true)) = r₂ at *
  split
  · exact stop_clean hretire h₂
  rename_i hprimed
  rw [if_neg hprimed] at hfailed
  by_cases hprepared : (!(r₂.1.startIsoPump a).2) = true
  · rw [if_pos hprepared]
    exact stop_clean hretire (h₂.startIsoPump (by simpa using hprepared))
  · rw [if_neg hprepared] at hfailed
    cases hfailed

/-- The generic `start` has claimed the streaming interface when the alternate setting or the clock is refused. -/
def Leaks (h : Host w) (a : Answers w) (req : StreamRequest) : Prop :=
  h.line6Profile = false ∧ h.device = true ∧ h.drv.captureWake.valid = true ∧ h.drv.playbackWake.valid = true ∧
    ∃ fmt, selectAltSetting a.config a.isHs req = .ok fmt ∧ a.claimInterface fmt.interfaceNumber = true ∧
      (a.setInterfaceAltSetting fmt.interfaceNumber fmt.altSetting = false ∨ a.setSampleRate = false)

theorem Stopped.reconfigure (hs : h.Stopped) : h.reconfigure a = (h, true) := by
  unfold Host.reconfigure
  refine if_neg ?_
  have hlive : h.transfersLive = false := by
    simp [transfersLive, hs.outs, hs.captures, hs.inflight]
  simp [hs.notStreaming, hlive, hs.eventThread, hs.capture]

theorem Stopped.claimStreaming (hs : h.Stopped) (fmt : StreamFormat) :
    h.claimStreaming a fmt =
      if a.claimInterface fmt.interfaceNumber then (h.holdStreaming fmt.interfaceNumber, true)
      else h.err .claimInterfaceFailed := by
  unfold Host.claimStreaming
  rw [if_pos (.inl (by simp [hs.streaming]))]
  simp only [hs.streaming, Bool.false_eq_true, if_false]

theorem Clean.err (hc : h.Clean) (code : StartError) : (h.err code).1.Clean :=
  ⟨hc.claims, hc.streaming, hc.control, hc.capture, hc.outs, hc.captures, hc.owned, hc.inflight, hc.eventThread⟩

/-- The control interface is claimed or not; everything else stays. -/
theorem claimControl_spec (hcontrol : h.controlInterfaceClaimed = false) (fmt : StreamFormat) :
    let r := h.claimControl a fmt
    r.claims = h.claims ∪ (if r.controlInterfaceClaimed then {r.claimedControlIface} else ∅) ∧
    r.interfaceClaimed = h.interfaceClaimed ∧ r.captureInterfaceClaimed = h.captureInterfaceClaimed ∧ r.rest = h.rest := by
  unfold Host.claimControl
  split
  swap
  · simp [hcontrol]
  simp only [hcontrol, Bool.false_eq_true, if_false]
  split
  · refine ⟨?_, rfl, rfl, rfl⟩
    rw [if_pos rfl, Finset.union_comm]
    rfl
  · simp [hcontrol]

/-- The second half of `start` on a stopped driver: nothing has happened, or the interface is claimed and the session is
reset, or the interface is claimed and the call returns false. -/
theorem Stopped.startFormat (hs : h.Stopped) (hdevice : h.device = true) (fmt : StreamFormat) :
    let r := h.startFormat a fmt
    (r.2 = false ∧ a.claimInterface fmt.interfaceNumber = false ∧ r.1.Clean) ∨
    (r.2 = false ∧ a.claimInterface fmt.interfaceNumber = true ∧
      (a.setInterfaceAltSetting fmt.interfaceNumber fmt.altSetting = false ∨ a.setSampleRate = false) ∧
      r.1.interfaceClaimed = true) ∨
    (r.2 = true ∧ a.setInterfaceAltSetting fmt.interfaceNumber fmt.altSetting = true ∧ a.setSampleRate = true ∧
      r.1.Starting ∧ r.1.captureInterfaceClaimed = false ∧ r.1.drv.usb.owned = ∅) := by
  unfold Host.startFormat
  rw [hs.claimStreaming fmt]
  cases hclaim : a.claimInterface fmt.interfaceNumber with
  | false => exact .inl ⟨rfl, rfl, hs.toClean.err _⟩
  | true =>
    obtain ⟨hclaims, hclaimed, hcapture, hrest⟩ := claimControl_spec (a := a)
      (h := h.holdStreaming fmt.interfaceNumber) hs.control fmt
    simp only [if_true, Bool.not_true, Bool.false_eq_true, if_false]
    generalize (h.holdStreaming fmt.interfaceNumber).claimControl a fmt = q at *
    have hdrv : q.drv = h.drv := congrArg (·.1) hrest
    have hstarting {d : Driver w} (hok : d.rotation.Ok ∅) (hformat : d.pb.format = fmt) : (q.withDriver d).Starting := by
      refine ⟨hok, (congrArg (·.2.1) hrest).trans hdevice, hclaimed, ?_⟩
      have hheld : (q.withDriver d).held = {fmt.interfaceNumber} ∪
          (if q.controlInterfaceClaimed then {q.claimedControlIface} else ∅) ∪
          (if q.captureInterfaceClaimed then {q.claimedCaptureIface} else ∅) := by
        simp only [held, withDriver, hclaimed, holdStreaming, if_true, hformat]
      show q.claims ⊆ _
      rw [hheld, hclaims, holdStreaming, hs.claims]
      exact Finset.subset_union_left
    have hreset : (q.drv.start fmt).rotation.Ok ∅ := by
      rw [hdrv]
      exact Driver.ok_of_empty hs.owned hs.pending hs.inflight.1 hs.inflight.2 nofun
    have howned : q.drv.usb.owned = ∅ := by
      rw [hdrv]
      exact hs.owned
    cases halt : a.setInterfaceAltSetting fmt.interfaceNumber fmt.altSetting with
    | false => exact .inr (.inl ⟨rfl, trivial, .inl rfl, hclaimed⟩)
    | true =>
      cases hrate : a.setSampleRate with
      | false => exact .inr (.inl ⟨rfl, trivial, .inr rfl, hclaimed⟩)
      | true => exact .inr (.inr ⟨rfl, rfl, rfl, hstarting hreset rfl, hcapture.trans hs.capture, howned⟩)

/-! ### The Line6 path -/

theorem stopCapturePump_side (h : Host w) (served : List DriverAct) : (h.stopCapturePump served).1.side = h.side := by
  unfold stopCapturePump
  dsimp only
  split <;> rfl

theorem startCapturePump_side (h : Host w) (a : Answers w) : (h.startCapturePump a).1.side = h.side := by
  unfold startCapturePump allocateCaptures
  dsimp only
  split
  · rfl
  split
  · rfl
  split
  · exact stopCapturePump_side _ _
  split
  · rfl
  · exact stopCapturePump_side _ _

theorem primeLayout_side (h : Host w) (a : Answers w) : (h.primeLayout a).1.side = h.side := by
  unfold primeLayout
  dsimp only
  split <;> rfl

theorem startIsoPump_side (h : Host w) (a : Answers w) : (h.startIsoPump a).1.side = h.side := by
  unfold startIsoPump
  split <;> rfl

/-- `fail` gives back everything when only the streaming interface may be claimed. -/
theorem line6Fail_clean (hretire : a.Retires) (hok : h.drv.rotation.Ok ∅) (hclaims : h.claims ⊆ h.held)
    (hcontrol : h.controlInterfaceClaimed = false) (hcapture : h.captureInterfaceClaimed = false)
    (hdevice : h.device = true ∨ h.interfaceClaimed = false) (code : StartError) : (h.line6Fail a code).1.Clean := by
  have hquiet : h.deactivateCapture.drv.rotation.Ok ∅ :=
    ⟨⟨hok.pending_nodup, hok.pending_free, hok.pending_mem, hok.owned_mem, hok.failed_stop⟩, hok.inflight,
      hok.captureInflight⟩
  obtain ⟨-, hidled⟩ := stopPumps_idled (h := { h.deactivateCapture with lastError := code }) (by simp) hretire hquiet
  unfold line6Fail
  dsimp only
  generalize stopPumps _ a .stopOut .stopCapture = r at *
  have hflags := hidled.flags
  simp only [Prod.mk.injEq] at hflags
  obtain ⟨hs, hk, hp⟩ := hflags
  have hclean (q : Host w) (hq : q.claims = ∅ ∧ q.interfaceClaimed = false ∧
      q.controlInterfaceClaimed = r.1.controlInterfaceClaimed ∧ q.captureInterfaceClaimed = r.1.captureInterfaceClaimed ∧
      q.rest = r.1.rest) : (q.withDriver { q.drv with streaming := false }).Clean := by
    obtain ⟨hq₁, hq₂, hq₃, hq₄, hq₅⟩ := hq
    have hdrv : q.drv = r.1.drv := congrArg (·.1) hq₅
    refine ⟨hq₁, hq₂, hq₃.trans (hk.trans hcontrol), hq₄.trans (hp.trans hcapture), ?_,
      (congrArg (·.2.2.1) hq₅).trans hidled.captures, ?_, ?_, (congrArg (·.2.2.2) hq₅).trans hidled.eventThread⟩
    · show q.drv.outCount = 0 ∧ q.drv.feedbackCount = 0
      rw [hdrv]
      exact hidled.outs
    · show q.drv.usb.owned = ∅
      rw [hdrv]
      exact hidled.owned
    · show q.drv.inflight = 0 ∧ q.drv.captureInflight = 0
      rw [hdrv]
      exact hidled.inflight
  refine hclean _ ?_
  have hheld : r.1.claims ⊆ r.1.held := by
    rw [hidled.claims, hidled.held]
    exact hclaims
  have hnone : r.1.held = if r.1.interfaceClaimed then {r.1.drv.pb.format.interfaceNumber} else ∅ := by
    rw [held, hk, hp]
    simp [deactivateCapture, withDriver, hcontrol, hcapture]
  rcases hdevice with hdevice | hfree
  · obtain ⟨hc, hs', hk', hp', -, -, hrest⟩ := releaseStreaming_spec (hidled.device.trans hdevice)
    refine ⟨?_, hs', hk', hp', hrest⟩
    rw [hc, Finset.sdiff_eq_empty_iff_subset, ← hnone]
    exact hheld
  · have hunclaimed : r.1.interfaceClaimed = false := hs.trans hfree
    have hsame : r.1.releaseStreaming = r.1 := by
      rw [releaseStreaming, if_neg]
      simp [hunclaimed]
    rw [hnone, hunclaimed, if_neg Bool.false_ne_true] at hheld
    rw [hsame]
    exact ⟨Finset.subset_empty.1 hheld, hunclaimed, rfl, rfl, rfl⟩

theorem line6Pumps_clean (hretire : a.Retires) (hdevice : h.device = true) (hclaimed : h.interfaceClaimed = true)
    (hcontrol : h.controlInterfaceClaimed = false) (hcapture : h.captureInterfaceClaimed = false)
    {playback capture : StreamFormat} (hclaims : h.claims ⊆ {playback.interfaceNumber}) (howned : h.drv.usb.owned = ∅)
    (hfailed : (h.line6Pumps a playback capture).2 = false) : (h.line6Pumps a playback capture).1.Clean := by
  -- all stages have the claims of the first one
  have hfail {q : Host w} (hq : q.Starting) (hside : q.side = h.side) (code : StartError) : (q.line6Fail a code).1.Clean := by
    simp only [side, Prod.mk.injEq] at hside
    exact line6Fail_clean hretire hq.ok hq.claims (hside.2.2.2.1.trans hcontrol) (hside.2.2.2.2.2.1.trans hcapture)
      (.inl hq.device) code
  have hreset : (h.drv.line6Reset playback capture).rotation.Ok ∅ := Driver.ok_of_empty howned rfl rfl rfl nofun
  have h₁ : (h.withDriver (h.drv.line6Reset playback capture)).Starting := by
    refine ⟨hreset, hdevice, hclaimed, ?_⟩
    show h.claims ⊆ (if h.interfaceClaimed then {playback.interfaceNumber} else ∅) ∪ _ ∪ _
    rw [hclaimed, if_pos rfl, Finset.union_assoc]
    exact hclaims.trans Finset.subset_union_left
  unfold line6Pumps at hfailed ⊢
  dsimp only at hfailed ⊢
  split
  · exact hfail h₁ rfl _
  rename_i halt
  rw [if_neg halt] at hfailed
  split
  · exact hfail h₁ rfl _
  rename_i hvendor
  rw [if_neg hvendor] at hfailed
  have hthread : Starting { h.withDriver (h.drv.line6Reset playback capture) with eventThread := true } :=
    h₁.congr rfl hreset rfl
  have h₂ := hthread.startCapturePump (fun j hj => Finset.notMem_empty _ (howned ▸ hj)) a
  have hside₂ := startCapturePump_side { h.withDriver (h.drv.line6Reset playback capture) with eventThread := true } a
  generalize startCapturePump { h.withDriver (h.drv.line6Reset playback capture) with eventThread := true } a = r₂ at *
  split
  · exact hfail h₂ hside₂ _
  rename_i hstarted
  rw [if_neg hstarted] at hfailed
  have h₃ := h₂.primeLayout a
  have hside₃ := (primeLayout_side r₂.1 a).trans hside₂
  generalize r₂.1.primeLayout a = r₃ at *
  split
  · exact hfail h₃ hside₃ _
  rename_i hprimed
  rw [if_neg hprimed] at hfailed
  have hside₄ := (startIsoPump_side r₃.1 a).trans hside₃
  by_cases hprepared : (!(r₃.1.startIsoPump a).2) = true
  · rw [if_pos hprepared]
    exact hfail (h₃.startIsoPump (by simpa using hprepared)) hside₄ _
  · rw [if_neg hprepared] at hfailed
    cases hfailed

theorem Stopped.line6StartDuplex (hs : h.Stopped) (hretire : a.Retires) (hfailed : (h.line6StartDuplex a).2 = false) :
    (h.line6StartDuplex a).1.Clean := by
  have hok : h.drv.rotation.Ok ∅ :=
    Driver.ok_of_empty hs.owned hs.pending hs.inflight.1 hs.inflight.2 hs.failedStop
  have hfail (code : StartError) : (h.line6Fail a code).1.Clean := by
    refine line6Fail_clean hretire hok ?_ hs.control hs.capture (.inr hs.streaming) code
    rw [hs.claims]
    exact Finset.empty_subset _
  unfold Host.line6StartDuplex at hfailed ⊢
  split
  · exact hs.toClean.err _
  rename_i hidle
  rw [if_neg hidle] at hfailed
  split
  · exact hfail _
  rename_i playback capture hselect
  rw [hselect] at hfailed
  dsimp only at hfailed
  have hdevice : h.device = true := by
    by_contra hno
    rw [if_neg hno] at hselect
    cases hselect
  have hfree : ¬h.interfaceClaimed = true := by
    rw [hs.streaming]
    exact Bool.false_ne_true
  rw [if_neg hfree] at hfailed ⊢
  by_cases hclaim : (!a.claimInterface playback.interfaceNumber) = true
  · rw [if_pos hclaim]
    exact hfail _
  rw [if_neg hclaim] at hfailed ⊢
  have hclaims : (h.holdStreaming playback.interfaceNumber).claims ⊆ {playback.interfaceNumber} := by
    rw [holdStreaming, hs.claims]
    exact subset_rfl
  have hopen : (h.holdStreaming playback.interfaceNumber).device = true := hdevice
  have hclaimed : (h.holdStreaming playback.interfaceNumber).interfaceClaimed = true := rfl
  have hcontrol : (h.holdStreaming playback.interfaceNumber).controlInterfaceClaimed = false := hs.control
  have hcapture : (h.holdStreaming playback.interfaceNumber).captureInterfaceClaimed = false := hs.capture
  have howned : (h.holdStreaming playback.interfaceNumber).drv.usb.owned = ∅ := hs.owned
  exact line6Pumps_clean hretire hopen hclaimed hcontrol hcapture hclaims howned hfailed

/-! ### The generic path -/

/-- The generic path behind a format that was found. -/
theorem Stopped.startFormat_unwinds_iff (hs : h.Stopped) (hretire : a.Retires) (hdevice : h.device = true)
    (fmt : StreamFormat) :
    let r := if !(h.startFormat a fmt).2 then ((h.startFormat a fmt).1, false) else (h.startFormat a fmt).1.startPumps a
    (r.2 = false → r.1.Clean) ↔ ¬(a.claimInterface fmt.interfaceNumber = true ∧
      (a.setInterfaceAltSetting fmt.interfaceNumber fmt.altSetting = false ∨ a.setSampleRate = false)) := by
  have hcases := hs.startFormat (a := a) hdevice fmt
  generalize h.startFormat a fmt = r at *
  dsimp only at hcases ⊢
  rcases hcases with ⟨hfailed, hrefused, hclean⟩ | ⟨hfailed, hclaimed, hanswers, hheld⟩ |
    ⟨hprepared, halt, hrate, hstarting, hnone, howned⟩
  · rw [hfailed, hrefused]
    exact iff_of_true (fun _ => hclean) fun hleak => Bool.false_ne_true hleak.1
  · rw [hfailed]
    refine iff_of_false (fun hunwound => ?_) (not_not.2 ⟨hclaimed, hanswers⟩)
    exact Bool.false_ne_true ((hunwound rfl).streaming.symm.trans hheld)
  · rw [hprepared]
    refine iff_of_true (fun hfailed => startPumps_clean hretire hstarting hnone howned hfailed) fun hleak => ?_
    rcases hleak.2 with hno | hno
    · exact Bool.false_ne_true (hno.symm.trans halt)
    · exact Bool.false_ne_true (hno.symm.trans hrate)

/-- `start` begins with the error cleared. -/
theorem Stopped.ready (hs : h.Stopped) : Stopped { h with lastError := .ok } :=
  ⟨⟨hs.claims, hs.streaming, hs.control, hs.capture, hs.outs, hs.captures, hs.owned, hs.inflight, hs.eventThread⟩,
    hs.notStreaming, hs.notCapturing, hs.pending, hs.queued, hs.failedStop⟩

/-- There is nothing to reconfigure. -/
theorem Stopped.start_eq (hs : h.Stopped) (req : StreamRequest) :
    h.start a req =
      if !h.device then Host.err { h with lastError := .ok } .noDevice
      else if !h.drv.captureWake.valid ∨ !h.drv.playbackWake.valid then
        Host.err { h with lastError := .ok } .isoPumpAllocFailed
      else match selectAltSetting a.config a.isHs req with
        | .error _ => Host.err { h with lastError := .ok } .noMatchingAlt
        | .ok fmt => Host.startFormat { h with lastError := .ok } a fmt := by
  have hsame := hs.ready.reconfigure (a := a)
  unfold Host.start
  dsimp only
  rw [hsame]
  rfl

theorem Stopped.start_unwinds_iff (hs : h.Stopped) (hretire : a.Retires) (hprofile : h.line6Profile = false)
    (req : StreamRequest) :
    let r := if !(h.start a req).2 then ((h.start a req).1, false) else (h.start a req).1.startPumps a
    (r.2 = false → r.1.Clean) ↔ ¬h.Leaks a req := by
  -- an early return leaves the stopped driver as it was
  have hearly {code : StartError} {p : Prop} (hp : ¬p) :
      (false = false → (Host.err { h with lastError := .ok } code).1.Clean) ↔ ¬p :=
    iff_of_true (fun _ => hs.ready.toClean.err code) hp
  rw [hs.start_eq]
  by_cases hdevice : (!h.device) = true
  · rw [if_pos hdevice]
    exact hearly fun hleak => by simp [hleak.2.1] at hdevice
  rw [if_neg hdevice]
  by_cases hwakes : (!h.drv.captureWake.valid) = true ∨ (!h.drv.playbackWake.valid) = true
  · rw [if_pos hwakes]
    refine hearly fun hleak => ?_
    rcases hwakes with hno | hno
    · simp [hleak.2.2.1] at hno
    · simp [hleak.2.2.2.1] at hno
  rw [if_neg hwakes]
  cases hselect : selectAltSetting a.config a.isHs req with
  | error e =>
    refine hearly ?_
    rintro ⟨-, -, -, -, fmt, hfound, -⟩
    cases hselect.symm.trans hfound
  | ok fmt =>
    have hopen : h.device = true := by simpa using hdevice
    refine (hs.ready.startFormat_unwinds_iff hretire hopen fmt).trans (not_congr ⟨?_, ?_⟩)
    · rintro ⟨hclaimed, hanswers⟩
      simp only [Bool.not_eq_true', not_or, Bool.not_eq_false] at hwakes
      exact ⟨hprofile, hopen, hwakes.1, hwakes.2, fmt, hselect, hclaimed, hanswers⟩
    · rintro ⟨-, -, -, -, fmt', hfound, hleak⟩
      obtain rfl := Except.ok.inj (hselect.symm.trans hfound)
      exact hleak

/-- For every answer of libusb to every call of a `startDuplex` from a stopped driver, as long as cancelled transfers
retire: a start that fails leaves nothing claimed, allocated, in flight or running, if and only if it does not run into
the returns of `start` behind its claim. -/
theorem startDuplex_unwinds_iff (hs : h.Stopped) (hretire : a.Retires) (req : StreamRequest) :
    ((h.startDuplex a req).2 = false → (h.startDuplex a req).1.Clean) ↔ ¬h.Leaks a req := by
  unfold startDuplex
  cases hprofile : h.line6Profile with
  | true =>
    refine iff_of_true ?_ fun hleaks => by simp [Leaks, hprofile] at hleaks
    rw [if_pos rfl]
    intro hfailed
    split
    · rename_i hreq
      rw [if_pos hreq] at hfailed
      exact hs.line6StartDuplex hretire hfailed
    · exact hs.toClean.err _
  | false =>
    rw [if_neg Bool.false_ne_true]
    exact hs.start_unwinds_iff hretire hprofile req

/-- The completion of a cancelled transfer. -/
def cancelled : Xfer → DriverAct
  | .out i => .outDone i .cancelled [] fun _ => true
  | .feedback k => .feedbackDone k { status := .cancelled } fun _ => true
  | .capture j => .captureDone j { status := .cancelled } fun _ => true

/-- libusb completes everything it owns during a teardown, and nothing elsewhere. -/
noncomputable def retiring {w : Nat} : Place → Driver w → List DriverAct
  | .stopOut, d | .stopCapture, d => d.usb.owned.toList.map cancelled
  | _, _ => []

theorem retires_retiring (ha : a.others = retiring) : a.Retires := by
  have hall (d : Driver w) (x : Xfer) (hx : x ∈ d.usb.owned) :
      ∃ b ∈ d.usb.owned.toList.map cancelled, b.completes = some x :=
    ⟨cancelled x, List.mem_map_of_mem (Finset.mem_toList.2 hx), by cases x <;> rfl⟩
  refine ⟨fun d L hL hok => ?_, fun d L hL hok hstop => ?_⟩
  · rw [ha]
    exact (Driver.retired_of_stop hL (Driver.requested_ok hok) rfl (hall d)).1
  · rw [ha]
    exact (Driver.retired_of_stop hL hok hstop (hall d)).2

/-- A stereo device with a capture interface, whose third capture transfer is refused. -/
noncomputable def captureRefused : Answers 64 where
  config := some uac1Stereo
  isHs := false
  selectCaptureAltSetting := fun playback => some { playback with interfaceNumber := 2 }
  mps := 192
  submit := fun x => x != .capture 2
  others := retiring

theorem opened_stopped : (Host.open_ (constructed defaultRing) {} {} 5 0).1.Stopped := by
  refine ⟨⟨?_, ?_, ?_, ?_, ?_, ?_, ?_, ?_, ?_⟩, ?_, ?_, ?_, ?_, ?_⟩ <;> decide

/-- The start fails with two capture transfers in flight and two interfaces claimed, and leaves neither. -/
theorem startDuplex_unwinds_refused :
    let h := (Host.open_ (constructed defaultRing) {} {} 5 0).1
    (h.startDuplex captureRefused ⟨48000, 16, 2, 2⟩).2 = false ∧
      (h.startDuplex captureRefused ⟨48000, 16, 2, 2⟩).1.Clean := by
  have hretire : captureRefused.Retires := retires_retiring rfl
  have hfailed : ((Host.open_ (constructed defaultRing) {} {} 5 0).1.startDuplex captureRefused ⟨48000, 16, 2, 2⟩).2 =
      false := by decide +kernel
  refine ⟨hfailed, (startDuplex_unwinds_iff opened_stopped hretire _).2 ?_ hfailed⟩
  rintro ⟨-, -, -, -, fmt, -, -, hno | hno⟩
  · cases hno
  · cases hno

/-- The clock refuses the rate: the call fails and the streaming and the control interface stay claimed. -/
theorem startDuplex_claims_left :
    let h := (Host.open_ (constructed defaultRing) {} {} 5 0).1
    let a : Answers 64 := { config := some uac1Stereo, isHs := false, setSampleRate := false }
    let r := h.startDuplex a ⟨48000, 16, 2, 2⟩
    h.Stopped ∧ r.2 = false ∧ r.1.interfaceClaimed = true ∧ r.1.controlInterfaceClaimed = true ∧ r.1.claims = {0, 1} ∧
      ¬r.1.Clean := by
  intro h a r
  refine ⟨opened_stopped, by decide, by decide, by decide, by decide, fun hclean => ?_⟩
  exact Bool.false_ne_true (hclean.streaming.symm.trans (by decide))

end Host

end UacDriver

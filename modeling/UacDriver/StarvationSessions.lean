import UacDriver.Starvation
import UacDriver.Sessions

/-!
# The sessions in which starvation is counted

A session prepared by `start` begins with the counters at zero and no episode open, and nothing before the start of
playback counts. `line6StartDuplex` has none of those stores: it begins with what the session before it has left.
-/

namespace UacDriver

open Runs Episodes

namespace Driver

variable {w : Nat} {d d' d₀ : Driver w}

/-- Nothing is counted, and nothing of the output is out that could. -/
structure Unplayed (d : Driver w) : Prop extends Uncounted d where
  noOut : ∀ i, .out i ∉ d.usb.owned
  pending : d.pending = []

namespace Unplayed

theorem congr (h : d.Unplayed) (hmeter : d'.pb.meter = d.pb.meter)
    (hrunway : d'.implicitZeroRunwayActive = d.implicitZeroRunwayActive)
    (howned : ∀ i, .out i ∈ d'.usb.owned → .out i ∈ d.usb.owned) (hpending : d'.pending = d.pending) : d'.Unplayed := by
  simp only [Playback.meter, Playback.Meter.mk.injEq] at hmeter
  obtain ⟨-, -, hunderruns, hactive, hshort, hplayed⟩ := hmeter
  exact
    { underruns := hunderruns.trans h.underruns
      shortFrames := hshort.trans h.shortFrames
      played := hplayed.trans h.played
      shortActive := hactive.trans h.shortActive
      runwayActive := hrunway.trans h.runwayActive
      noOut := fun i hi => h.noOut i (howned i hi)
      pending := hpending.trans h.pending }

/-- A change of neither the playback side nor the transfers. -/
theorem keep (h : d.Unplayed) (hmeter : d'.pb.meter = d.pb.meter)
    (hrunway : d'.implicitZeroRunwayActive = d.implicitZeroRunwayActive) (husb : d'.usb = d.usb)
    (hpending : d'.pending = d.pending) : d'.Unplayed :=
  h.congr hmeter hrunway (fun i hi => by rwa [husb] at hi) hpending

theorem release (h : d.Unplayed) (x : Xfer) : (d.release x).Unplayed :=
  h.congr rfl rfl (fun _ hi => Finset.mem_of_mem_erase hi) rfl

theorem submit (h : d.Unplayed) {x : Xfer} (hx : ∀ i, .out i ≠ x) (ok : Bool) (lengths : List Nat) :
    (d.submit x ok lengths).Unplayed := by
  refine h.congr rfl rfl (fun i hi => ?_) rfl
  cases ok with
  | false => exact hi
  | true =>
    rcases Finset.mem_insert.1 hi with he | hi
    · exact absurd he (hx i)
    · exact hi

theorem onCapture (h : d.Unplayed) (j : Nat) (x : Transfer) (ok : Xfer → Bool) : (d.onCapture j x ok).Unplayed := by
  have hreceive : (d.receiveCapture x).Unplayed := h.keep rfl rfl rfl rfl
  have hnone : (d.receiveCapture x).submitPendingImplicitTransfers ok = d.receiveCapture x :=
    Idle.submitPendingImplicitTransfers_nil (d := d.receiveCapture x) h.pending ok
  have hwake : (d.receiveCapture x).wakeCapture.Unplayed := hreceive.keep rfl rfl rfl rfl
  have hsubmit (ok : Bool) := hwake.submit (x := .capture j) (fun _ => Xfer.noConfusion) ok x.lengths
  refine onCapture_rule (P := Unplayed) ?_ ?_ (fun _ => ?_) (fun _ _ => ?_) fun _ _ => ?_
  · exact fun _ => h.keep rfl rfl rfl rfl
  · exact fun _ => h.keep rfl rfl rfl rfl
  · rw [hnone]
    exact hwake.keep rfl rfl rfl rfl
  · rw [hnone]
    exact hsubmit true
  · rw [hnone]
    exact (hsubmit false).keep rfl rfl rfl rfl

theorem onFeedback (h : d.Unplayed) (k : Nat) (x : Transfer) (ok : Xfer → Bool) : (d.onFeedback k x ok).Unplayed := by
  have hnote : (d.noteFeedback x).Unplayed := by
    unfold Driver.noteFeedback
    split
    · split
      · unfold acceptFeedback
        dsimp only
        split
        · exact h.keep rfl rfl rfl rfl
        · exact h
      · exact h.keep rfl rfl rfl rfl
    · exact h.keep rfl rfl rfl rfl
  have hsubmit (ok : Bool) := hnote.submit (x := .feedback k) (fun _ => Xfer.noConfusion) ok x.lengths
  refine onFeedback_rule (P := Unplayed) ?_ ?_ (fun _ _ => ?_) fun _ _ => ?_
  · exact h.keep rfl rfl rfl rfl
  · exact h.keep rfl rfl rfl rfl
  · exact hsubmit true
  · exact (hsubmit false).keep rfl rfl rfl rfl

theorem step (h : d.Unplayed) (a : DriverAct) : (d.step a).Unplayed := by
  cases a with
  | outDone i status results ok =>
    rw [Driver.step, if_neg (h.noOut i)]
    exact h
  | captureDone j x ok =>
    unfold Driver.step
    dsimp only
    split
    · exact (h.release _).onCapture j x ok
    · exact h
  | feedbackDone k x ok =>
    unfold Driver.step
    dsimp only
    split
    · exact (h.release _).onFeedback k x ok
    · exact h
  | writePcm data frames => exact h.keep (Playback.writePcm_meter data frames) rfl rfl rfl
  | submitQuantum accepting policy frames packed charge =>
    exact h.keep (Playback.submitQuantum_meter accepting policy frames packed charge) rfl rfl rfl
  | takePlaybackCredit frames => exact h.keep (Playback.takePlaybackCredit_meter frames) rfl rfl rfl
  | chargePlaybackCredit frames => exact h.keep (Playback.chargePlaybackCredit_meter frames) rfl rfl rfl
  | _ => exact h.keep rfl rfl rfl rfl

theorem run (h : d.Unplayed) (as : List DriverAct) : (Runs.run Driver.step d as).Unplayed :=
  run_invariant (fun _ a hd => hd.step a) h as

theorem submitCaptures (h : d.Unplayed) (lengths : List Nat) (a : Answers w) (js : List Nat) :
    (Driver.submitCaptures lengths a js d).1.Unplayed := by
  induction js generalizing d with
  | nil => exact h
  | cons j js ih =>
    have hothers := h.run (a.others (.captureSubmit j) d)
    rw [Driver.submitCaptures]
    dsimp only
    split
    · refine ih (submit (x := .capture j) ?_ (fun _ => Xfer.noConfusion) true lengths)
      exact hothers.keep rfl rfl rfl rfl
    · exact (hothers.submit (x := .capture j) (fun _ => Xfer.noConfusion) false lengths).keep rfl rfl rfl rfl

theorem startIsoPump (h : d.Unplayed) {maxPacket : Int} {alloc : Bool} (he : d.startIsoPump maxPacket alloc = some d') :
    d'.Unplayed := by
  unfold Driver.startIsoPump at he
  dsimp only at he
  obtain ⟨-, hplan⟩ := Option.ite_none_left_eq_some.1 he
  obtain ⟨⟨plan, fifo⟩, -, rfl⟩ := Option.map_eq_some_iff.1 hplan
  exact ⟨⟨h.underruns, h.shortFrames, h.played, h.shortActive, h.runwayActive⟩, h.noOut, rfl⟩

end Unplayed

end Driver

namespace Host

open Driver (Uncounted)

variable {w : Nat} {h : Host w} {a : Answers w}

/-! ### A start -/

abbrev Unplayed (h : Host w) : Prop := h.drv.Unplayed

theorem allocateCaptures_unplayed (hd : h.drv.Unplayed) (packets : Nat) :
    Leaves Unplayed (h.allocateCaptures packets a) := by
  have hactive : h.drv.activateCapture.Unplayed := hd.keep rfl rfl rfl rfl
  have hsubmitted := hactive.submitCaptures (List.replicate packets a.mps.toNat) a (List.range h.drv.geometry.transferCount)
  unfold allocateCaptures
  dsimp only
  refine .gate rfl fun hok => ⟨hok, ?_⟩
  split
  · exact hsubmitted
  · rename_i hno
    rw [if_neg hno] at hok
    cases hok

theorem startCapturePump_unplayed (hd : h.drv.Unplayed) : Leaves Unplayed (h.startCapturePump a) := by
  unfold startCapturePump
  dsimp only
  refine .gate rfl (.gate rfl (allocateCaptures_unplayed ?_ _))
  exact hd.keep rfl rfl rfl rfl

theorem startCapture_unplayed (hd : h.drv.Unplayed) : Leaves Unplayed (h.startCapture a) := by
  unfold startCapture
  cases a.selectCaptureAltSetting h.drv.pb.format with
  | none => exact nofun
  | some capture =>
    refine .gate rfl (.gate rfl (.gate rfl (startCapturePump_unplayed ?_)))
    exact ⟨⟨hd.underruns, hd.shortFrames, hd.played, hd.shortActive, rfl⟩, hd.noOut, hd.pending⟩

theorem primeLayout_unplayed (hd : h.drv.Unplayed) : Leaves Unplayed (h.primeLayout a) := by
  have hprimed := ((hd.step .registerCapture).run (a.others .priming (h.drv.step .registerCapture))).step .unregisterCapture
  unfold primeLayout
  exact .gate rfl fun _ => ⟨rfl, hprimed⟩

theorem startIsoPump_unplayed (hd : h.drv.Unplayed) : Leaves Unplayed (h.startIsoPump a) := by
  unfold startIsoPump
  cases he : h.drv.startIsoPump a.maxPacket a.alloc with
  | none => exact nofun
  | some e => exact fun _ => ⟨rfl, hd.startIsoPump he⟩

theorem streamingOn_unplayed (hd : h.drv.Unplayed) : Leaves Unplayed h.streamingOn :=
  fun _ => ⟨rfl, hd.keep rfl rfl rfl rfl⟩

theorem unplayed_stages (a : Answers w) :
    Stages a (fun q q' => q = q' ∧ q.Unplayed) (fun q q' => q = q' ∧ q.Unplayed) :=
  .of_leaves primeLayout_unplayed startIsoPump_unplayed streamingOn_unplayed

theorem line6Pumps_unplayed (hcounted : h.drv.Uncounted) (hout : ∀ i, .out i ∉ h.drv.usb.owned)
    (playback capture : StreamFormat) : Leaves Unplayed (h.line6Pumps a playback capture) := by
  have hreset : (h.drv.line6Reset playback capture).Unplayed :=
    ⟨⟨hcounted.underruns, hcounted.shortFrames, hcounted.played, hcounted.shortActive, hcounted.runwayActive⟩, hout, rfl⟩
  exact (unplayed_stages a).line6Pumps_leaves (startCapturePump_unplayed hreset)

/-- A start of a stopped driver begins a session with nothing counted; on the Line6 path only if nothing was. -/
theorem Stopped.startDuplex_unplayed (hs : h.Stopped) (hline6 : h.line6Profile = true → h.drv.Uncounted)
    (req : StreamRequest) : Leaves Unplayed (h.startDuplex a req) := by
  have hout (i : Nat) : .out i ∉ h.drv.usb.owned := hs.owned ▸ Finset.notMem_empty _
  unfold startDuplex
  cases hprofile : h.line6Profile with
  | false =>
    rw [if_neg Bool.false_ne_true]
    dsimp only
    have hstart := hs.start_follows (a := a) hs rfl req
    refine .bind hstart rfl ?_
    rintro ⟨fmt, hdrv, -⟩
    refine (unplayed_stages a).startPumps_leaves (startCapture_unplayed ?_)
    rw [hdrv]
    exact ⟨⟨rfl, rfl, rfl, rfl, rfl⟩, hout, hs.pending⟩
  | true =>
    have hcounted := hline6 hprofile
    rw [if_pos rfl]
    split
    · unfold Host.line6StartDuplex
      refine .gate rfl ?_
      cases (if h.device then line6SelectFormat a.config a.isHs else none) with
      | none => exact nofun
      | some formats =>
        dsimp only
        split
        · exact line6Pumps_unplayed hcounted hout formats.1 formats.2
        · exact .gate rfl (line6Pumps_unplayed (h := h.holdStreaming formats.1.interfaceNumber) hcounted hout formats.1
            formats.2)
    · exact nofun

/-- The sessions of a stopped driver, whatever happens between the start and the start of playback. -/
theorem Stopped.session_tallies (hs : h.Stopped) (hline6 : h.line6Profile = true → h.drv.Uncounted) {req : StreamRequest}
    (hok : (h.startDuplex a req).2 = true) (bs : List DriverAct) {ok : Xfer → Bool} {d₀ : Driver w}
    (hstart : (run Driver.step (h.startDuplex a req).1.drv bs).startPlayback ok = some d₀) (as : List DriverAct) :
    (run Driver.step d₀ as).Tallies ((run Driver.step (h.startDuplex a req).1.drv bs).startPlaybackLog ++
      Runs.log Driver.step Driver.stepLog d₀ as) := by
  have hstarted := (hs.startDuplex_unplayed hline6 req hok).2
  exact (((hstarted.run bs).startPlayback hstart).run as).toTallies

/-! ### Two sessions of a UX1 -/

/-- One interface with the endpoints of the Line6 profile. -/
def ux1 : ConfigDescriptor where
  interface := [[⟨0, 2, 0xFF, 0, [⟨0x01, 0x09, 192, 1, 0⟩, ⟨0x82, 0x05, 192, 1, 0⟩], []⟩]]

/-- A capture transfer with a packet of one frame. -/
def oneFrame : Transfer := { packets := [{ length := 192, actualLength := 4 }] }

/-- A start succeeds with the layout of four packets, and the capture transfers come back when they are cancelled. -/
def ux1Duplex : Answers 64 where
  config := some ux1
  isHs := false
  mps := 192
  maxPacket := 192
  others
    | .priming, _ => (List.range kDefaultNumTransfers).map fun j => .captureDone j oneFrame fun _ => true
    | .stopCapture, _ => (List.range kDefaultNumTransfers).map fun j => cancelled (.capture j)
    | _, _ => []

def ux1Opened : Host 64 := run step (constructed defaultRing) [.open_ {} { identity := some (0x0e41, 0x4141) } 5 1]

/-- Started, and filled with what the prime takes. -/
def ux1Primed (h : Host 64) : Driver 64 :=
  (run step h [.startDuplex ux1Duplex ⟨44100, 16, 2, 2⟩, .driver (.writePcm (List.replicate 512 0) 128)]).drv

/-- Every OUT transfer completes with nothing to follow it: one zero-runway episode. -/
def deferrals : List DriverAct := (List.range kDefaultNumTransfers).map fun i => .outDone i .completed [] fun _ => true

/-- Playback starts and starves: the driver behind it, and the log. -/
def starved (d : Driver 64) : Option (Driver 64 × List PumpEvent) :=
  (d.startPlayback fun _ => true).map fun d₀ =>
    (run Driver.step d₀ deferrals, d.startPlaybackLog ++ Runs.log Driver.step Driver.stepLog d₀ deferrals)

/-- A session that starves, and its end. -/
def ux1Stopped : Host 64 :=
  (starved (ux1Primed ux1Opened)).elim ux1Opened fun s =>
    (((run step ux1Opened [.startDuplex ux1Duplex ⟨44100, 16, 2, 2⟩]).withDriver s.1).step (.stop ux1Duplex))

end Host

/-- Each starvation episode is counted once. In a session that begins with the counters at zero and no episode open, after
any steps: the underruns are the maximal runs of short drains and the zero-runway episodes, of the prime and of all
callbacks since; the short frames are the shortfall of all drains and the played frames what they delivered. -/
theorem starvation_counted_once {w : Nat} {d d₀ : Driver w} (h : d.Uncounted) {ok : Xfer → Bool}
    (hstart : d.startPlayback ok = some d₀) (as : List DriverAct) :
    (run Driver.step d₀ as).Tallies (d.startPlaybackLog ++ Runs.log Driver.step Driver.stepLog d₀ as) :=
  ((h.startPlayback hstart).run as).toTallies

open Host

/-- The first session of the UX1 starves once, and counts it. -/
theorem starvation_counted_once_first :
    ∃ d₀, (ux1Primed ux1Opened).startPlayback (fun _ => true) = some d₀ ∧
      (run Driver.step d₀ deferrals).Tallies
        ((ux1Primed ux1Opened).startPlaybackLog ++ Runs.log Driver.step Driver.stepLog d₀ deferrals) ∧
      (run Driver.step d₀ deferrals).pb.playbackUnderruns = 1 := by
  have hnone : (ux1Primed ux1Opened).Uncounted := by
    constructor <;> decide +kernel
  have hcount : ((ux1Primed ux1Opened).startPlayback fun _ => true).map
      (fun d₀ => (run Driver.step d₀ deferrals).pb.playbackUnderruns) = some 1 := by decide +kernel
  obtain ⟨d₀, hstart, hone⟩ := Option.map_eq_some_iff.1 hcount
  exact ⟨d₀, hstart, starvation_counted_once hnone hstart deferrals, hone⟩

/-- What the log of a session says the underruns are. -/
def episodes (log : List PumpEvent) : Nat :=
  maximalRuns (log.filterMap PumpEvent.short?) + maximalRuns (log.filterMap PumpEvent.runway?)

/-- The next session of the UX1 starves once as well. Its counter is one before anything has happened, and still one
behind the episode: it counts neither this session nor both. -/
theorem starvation_missed_restart :
    ux1Stopped.Stopped ∧ (ux1Stopped.startDuplex ux1Duplex ⟨44100, 16, 2, 2⟩).2 = true ∧
      ∃ s₁ d₀, starved (ux1Primed ux1Opened) = some s₁ ∧ (ux1Primed ux1Stopped).startPlayback (fun _ => true) = some d₀ ∧
        ¬d₀.Tallies (ux1Primed ux1Stopped).startPlaybackLog ∧
        ¬(run Driver.step d₀ deferrals).Tallies
          (s₁.2 ++ ((ux1Primed ux1Stopped).startPlaybackLog ++ Runs.log Driver.step Driver.stepLog d₀ deferrals)) := by
  refine ⟨?_, by decide +kernel, ?_⟩
  · refine ⟨⟨?_, ?_, ?_, ?_, ?_, ?_, ?_, ?_, ?_⟩, ?_, ?_, ?_, ?_, ?_⟩ <;> decide +kernel
  have hcounts : ((starved (ux1Primed ux1Opened)).bind fun s₁ =>
      ((ux1Primed ux1Stopped).startPlayback fun _ => true).map fun d₀ =>
        ((d₀.pb.playbackUnderruns, episodes (ux1Primed ux1Stopped).startPlaybackLog),
          (run Driver.step d₀ deferrals).pb.playbackUnderruns,
          episodes (s₁.2 ++ ((ux1Primed ux1Stopped).startPlaybackLog ++ Runs.log Driver.step Driver.stepLog d₀ deferrals)))) =
      some ((1, 0), 1, 2) := by decide +kernel
  obtain ⟨s₁, hfirst, hsecond⟩ := Option.bind_eq_some_iff.1 hcounts
  obtain ⟨d₀, hstart, hcounts⟩ := Option.map_eq_some_iff.1 hsecond
  simp only [Prod.mk.injEq] at hcounts
  obtain ⟨⟨hbefore, hnone⟩, hbehind, htwo⟩ := hcounts
  refine ⟨s₁, d₀, hfirst, hstart, fun ht => ?_, fun ht => ?_⟩
  · have hone : 1 = 0 := hbefore.symm.trans (ht.underruns.trans hnone)
    cases hone
  · have hone : 1 = 2 := hbehind.symm.trans (ht.underruns.trans htwo)
    cases hone

end UacDriver

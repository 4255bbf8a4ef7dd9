import UacDriver.DescriptorReads
import UacDriver.Envelope
import UacDriver.ErrorCodes
import UacDriver.SideBySide
import UacDriver.Starvation

/-!
# One session after another

Two stopped drivers with the same device, buffer configuration and policy, whatever came before, and a start of each with
the same answers. Every call of the start on the one side is followed by its twin on the other, so the two sessions differ
in nothing but what no start resets: the hand-over of capture, and on the Line6 path also the credit, the positions, the
counters with their latches, the meters and the error code, all of which the generic `start` stores afresh.

Left out is what each event thread stores for itself, and what no start writes: the worst cases of the event loop, the
sample that the continuity check saw last, and the writes still unread on the wake channels.
-/

namespace UacDriver

open Runs

/-! ### The calls, side by side -/

/-- The device, the buffer configuration and the policy. -/
structure Setup (w : Nat) where
  device : Bool
  line6Profile : Bool
  captureWakeValid : Bool
  playbackWakeValid : Bool
  playbackSize : RingSize w
  captureSize : RingSize w
  userspaceBufferConfig : UserspaceBufferConfig
  transferCount : Nat
  graphQuantum : Nat
  captureLimitFrames : Nat
  playbackTargetFrames : Nat
  writeHeadroomFrames : Nat
  playbackCreditReserve : Nat

namespace Host

open Driver (Alike)

variable {w : Nat} {h h' : Host w} {a : Answers w} {s s' : Driver w}

def setup (h : Host w) : Setup w where
  device := h.device
  line6Profile := h.line6Profile
  captureWakeValid := h.drv.captureWake.valid
  playbackWakeValid := h.drv.playbackWake.valid
  playbackSize := h.drv.pb.ring.size
  captureSize := h.drv.cap.ring.size
  userspaceBufferConfig := h.drv.userspaceBufferConfig
  transferCount := h.drv.geometry.transferCount
  graphQuantum := h.drv.geometry.graphQuantum
  captureLimitFrames := h.drv.geometry.captureLimitFrames
  playbackTargetFrames := h.drv.pb.playbackTargetFrames
  writeHeadroomFrames := h.drv.pb.writeHeadroomFrames
  playbackCreditReserve := h.drv.pb.playbackCreditReserve

/-- The session reset is behind both; the packet counts of the capture pump are still to be stored. -/
def Reset (s s' : Driver w) (a : Answers w) (d d' : Driver w) : Prop :=
  ∀ packets frames, Alike s s' a.Silent
    ((d.withCapturePackets packets).withCaptureFrames frames) ((d'.withCapturePackets packets).withCaptureFrames frames)

/-- The second call succeeds if the first does, and then the hosts behind them are related. -/
def Follows (R : Host w → Host w → Prop) (r r' : Host w × Bool) : Prop := r.2 = true → r'.2 = true ∧ R r.1 r'.1

/-- A relation of the drivers. -/
abbrev Drivers (R : Driver w → Driver w → Prop) (h h' : Host w) : Prop := R h.drv h'.drv

/-- A call that succeeds leaves `P`. -/
abbrev Leaves (P : Host w → Prop) (r : Host w × Bool) : Prop := Follows (fun q _ => P q) r r

namespace Follows

variable {R S : Host w → Host w → Prop} {r r' q q' f f' : Host w × Bool}

/-- A check that is the same on both sides. -/
theorem gate {c : Prop} [Decidable c] (hf : f.2 = false) (hr : Follows R r r') :
    Follows R (if c then f else r) (if c then f' else r') := by
  by_cases hc : c
  · rw [if_pos hc, if_pos hc]
    intro hok
    cases hf.symm.trans hok
  · rw [if_neg hc, if_neg hc]
    exact hr

/-- A stage, and what comes behind it. -/
theorem bind (hq : Follows R q q') (hf : f.2 = false) (hr : R q.1 q'.1 → Follows S r r') :
    Follows S (if !q.2 then f else r) (if !q'.2 then f' else r') := by
  cases hok : q.2 with
  | false =>
    intro hok'
    cases hf.symm.trans hok'
  | true =>
    obtain ⟨hok', halike⟩ := hq hok
    rw [hok']
    exact hr halike

end Follows

/-! ### The stages -/

/-- The stages of a start behind its capture half, from hosts in the relation `R` to hosts in the relation `S`. -/
structure Stages (a : Answers w) (R S : Host w → Host w → Prop) : Prop where
  mode : ∀ {q q'}, R q q' → q.drv.implicitMode = q'.drv.implicitMode
  primeLayout : ∀ {q q'}, R q q' → Follows R (q.primeLayout a) (q'.primeLayout a)
  startIsoPump : ∀ {q q'}, R q q' → Follows S (q.startIsoPump a) (q'.startIsoPump a)
  streamingOn : ∀ {q q'}, S q q' → Follows S q.streamingOn q'.streamingOn

namespace Stages

variable {R S : Host w → Host w → Prop} {P Q : Host w → Prop}

theorem startPumps (hstages : Stages a R S) (hcapture : Follows R (h.startCapture a) (h'.startCapture a)) :
    Follows S (h.startPumps a) (h'.startPumps a) := by
  unfold Host.startPumps
  dsimp only
  refine .bind hcapture rfl fun hr => ?_
  have hlayout : Follows R
      (if (h.startCapture a).1.drv.implicitMode then (h.startCapture a).1.primeLayout a else ((h.startCapture a).1, true))
      (if (h'.startCapture a).1.drv.implicitMode then (h'.startCapture a).1.primeLayout a
        else ((h'.startCapture a).1, true)) := by
    rw [← hstages.mode hr]
    split
    · exact hstages.primeLayout hr
    · exact fun _ => ⟨rfl, hr⟩
  exact .bind hlayout rfl fun hready => .bind (hstages.startIsoPump hready) rfl hstages.streamingOn

theorem line6Pumps (hstages : Stages a R S) {playback capture : StreamFormat}
    (hcapture : Follows R
      (startCapturePump { h.withDriver (h.drv.line6Reset playback capture) with eventThread := true } a)
      (startCapturePump { h'.withDriver (h'.drv.line6Reset playback capture) with eventThread := true } a)) :
    Follows S (h.line6Pumps a playback capture) (h'.line6Pumps a playback capture) := by
  unfold Host.line6Pumps
  dsimp only
  refine .gate rfl (.gate rfl (.bind hcapture rfl fun hr => ?_))
  exact .bind (hstages.primeLayout hr) rfl fun hready =>
    .bind (hstages.startIsoPump hready) rfl hstages.streamingOn

/-- One host beside itself. -/
theorem of_leaves (hprime : ∀ {q}, P q → Leaves P (q.primeLayout a)) (hpump : ∀ {q}, P q → Leaves Q (q.startIsoPump a))
    (hon : ∀ {q}, Q q → Leaves Q q.streamingOn) : Stages a (fun q q' => q = q' ∧ P q) (fun q q' => q = q' ∧ Q q) where
  mode := fun ⟨he, _⟩ => congrArg (·.drv.implicitMode) he
  primeLayout := fun ⟨he, hq⟩ => he ▸ fun hok => ⟨hok, rfl, (hprime hq hok).2⟩
  startIsoPump := fun ⟨he, hq⟩ => he ▸ fun hok => ⟨hok, rfl, (hpump hq hok).2⟩
  streamingOn := fun ⟨he, hq⟩ => he ▸ fun hok => ⟨hok, rfl, (hon hq hok).2⟩

theorem startPumps_leaves (hstages : Stages a (fun q q' => q = q' ∧ P q) (fun q q' => q = q' ∧ Q q))
    (hcapture : Leaves P (h.startCapture a)) : Leaves Q (h.startPumps a) := fun hok =>
  ⟨hok, (hstages.startPumps (fun hok => ⟨hok, rfl, (hcapture hok).2⟩) hok).2.2⟩

theorem line6Pumps_leaves (hstages : Stages a (fun q q' => q = q' ∧ P q) (fun q q' => q = q' ∧ Q q))
    {playback capture : StreamFormat}
    (hcapture : Leaves P
      (startCapturePump { h.withDriver (h.drv.line6Reset playback capture) with eventThread := true } a)) :
    Leaves Q (h.line6Pumps a playback capture) := fun hok =>
  ⟨hok, (hstages.line6Pumps (fun hok => ⟨hok, rfl, (hcapture hok).2⟩) hok).2.2⟩

end Stages

/-! ### Each stage on both sides -/

theorem allocateCaptures_follows (ha : a.Scripted) (hd : Alike s s' a.Silent h.drv h'.drv) (packets : Nat) :
    Follows (Drivers (Alike s s' a.Silent)) (h.allocateCaptures packets a) (h'.allocateCaptures packets a) := by
  have hcount : h'.drv.geometry.transferCount = h.drv.geometry.transferCount :=
    (congrArg Core.transferCount hd.core).symm
  have hloop := (hd.setActive true).submitCaptures ha (List.replicate packets a.mps.toNat)
    (List.range h.drv.geometry.transferCount)
  unfold allocateCaptures
  dsimp only
  rw [hcount]
  refine .gate rfl fun hok => ?_
  by_cases hsubmitted : (Driver.submitCaptures (List.replicate packets a.mps.toNat) a
      (List.range h.drv.geometry.transferCount) h.drv.activateCapture).2 = true
  · obtain ⟨hsubmitted', halike⟩ := hloop hsubmitted
    have hsubmitted' : (Driver.submitCaptures (List.replicate packets a.mps.toNat) a
      (List.range h.drv.geometry.transferCount) h'.drv.activateCapture).2 = true := hsubmitted'
    rw [if_pos hsubmitted, if_pos hsubmitted']
    exact ⟨rfl, halike⟩
  · rw [if_neg hsubmitted] at hok
    cases hok

theorem startCapturePump_follows (h h' : Host w) (ha : a.Scripted) (hd : Reset s s' a h.drv h'.drv) :
    Follows (Drivers (Alike s s' a.Silent)) (h.startCapturePump a) (h'.startCapturePump a) := by
  have hformat : h'.drv.cap.format = h.drv.cap.format := (hd 0 0).cap.format.symm
  have hstride : h'.drv.cap.stride = h.drv.cap.stride := congrArg StreamFormat.frameStride hformat
  have hconfig : h'.drv.userspaceBufferConfig = h.drv.userspaceBufferConfig :=
    (congrArg Core.userspaceBufferConfig (hd 0 0).core).symm
  unfold startCapturePump
  dsimp only
  rw [hformat, hstride, hconfig]
  exact .gate rfl (.gate rfl (allocateCaptures_follows ha (hd _ _) _))

theorem startCapture_follows (ha : a.Scripted)
    (hd : ∀ capture, Reset s s' a (h.drv.resetCapture capture) (h'.drv.resetCapture capture)) :
    Follows (Drivers (Alike s s' a.Silent)) (h.startCapture a) (h'.startCapture a) := by
  have hformat : h'.drv.pb.format = h.drv.pb.format := ((hd {}) 0 0).playbackFormat.symm
  unfold startCapture
  rw [hformat]
  cases a.selectCaptureAltSetting h.drv.pb.format with
  | none => exact nofun
  | some capture =>
    exact .gate rfl (.gate rfl (.gate rfl (startCapturePump_follows ((h.claimCapture capture).resetCapture capture)
      ((h'.claimCapture capture).resetCapture capture) ha (hd capture))))

theorem primeLayout_follows (ha : a.Scripted) (hd : Alike s s' a.Silent h.drv h'.drv) :
    Follows (Drivers (Alike s s' a.Silent)) (h.primeLayout a) (h'.primeLayout a) := by
  have hcount : h'.drv.geometry.transferCount = h.drv.geometry.transferCount :=
    (congrArg Core.transferCount hd.core).symm
  have hwaiting : Alike s s' a.Silent (h.drv.step .registerCapture) (h'.drv.step .registerCapture) :=
    hd.congr rfl rfl hd.core ⟨hd.quiet.pending, hd.quiet.owned⟩
  have hserved := hwaiting.wait ha .priming
  unfold primeLayout
  dsimp only
  rw [hcount, ← hd.playbackFormat]
  generalize run Driver.step (h.drv.step .registerCapture) (a.others .priming (h.drv.step .registerCapture)) = d at *
  generalize run Driver.step (h'.drv.step .registerCapture) (a.others .priming (h'.drv.step .registerCapture)) = d' at *
  have hprimed : Alike s s' a.Silent (d.step .unregisterCapture) (d'.step .unregisterCapture) :=
    hserved.congr rfl rfl hserved.core ⟨hserved.quiet.pending, hserved.quiet.owned⟩
  rw [← hprimed.fifo.read, ← hprimed.fifo.write]
  exact .gate rfl fun _ => ⟨rfl, hprimed⟩

/-- Behind both starts; `s` and `s'` are the drivers behind the resets. -/
structure Started (s s' : Driver w) (a : Answers w) (d d' : Driver w) : Prop where
  session : d.session = { d'.session with carried := d.carried, statistics := d.statistics }
  carried : d.carried = s.carried ∧ d'.carried = s'.carried
  counted : Driver.Counted s s' d d'
  playback : d.pb.ring.head = 0 ∧ d.pb.ring.tail = 0 ∧ d.pb.queuedOutFrames = 0
  capture : d.cap.ring.tail = 0 ∧ (a.Silent → d.cap.ring.head = 0)
  pending : d.pending = []

/-- The playback side as a reset leaves it. -/
def Emptied (p : Playback w) : Prop := p.ring.head = 0 ∧ p.ring.tail = 0 ∧ p.queuedOutFrames = 0

theorem startIsoPump_follows (hd : Alike s s' a.Silent h.drv h'.drv) (hp : Emptied s.pb) :
    Follows (Drivers (Started s s' a)) (h.startIsoPump a) (h'.startIsoPump a) := by
  unfold startIsoPump
  cases he : h.drv.startIsoPump a.maxPacket a.alloc with
  | none => exact nofun
  | some e =>
    obtain ⟨e', he', hsession⟩ := hd.startIsoPump he
    obtain ⟨hcap, hpb, hpending⟩ := Driver.startIsoPump_keeps he
    rw [he']
    have hcounted := hd.counted.congr (Driver.startIsoPump_statistics he) (Driver.startIsoPump_statistics he')
    have hcarried := (Driver.startIsoPump_carried he).trans hd.carried_eq.1
    have hcarried' := (Driver.startIsoPump_carried he').trans hd.carried_eq.2
    refine fun _ => ⟨rfl, hsession, ⟨hcarried, hcarried'⟩, hcounted, ?_, ?_, hpending⟩
    · show e.pb.ring.head = 0 ∧ e.pb.ring.tail = 0 ∧ e.pb.queuedOutFrames = 0
      rw [hpb, hd.pb.1]
      exact hp
    · show e.cap.ring.tail = 0 ∧ (a.Silent → e.cap.ring.head = 0)
      rw [hcap]
      exact ⟨hd.tail, hd.head⟩

theorem Started.streamingOn (hst : Started s s' a h.drv h'.drv) :
    Follows (Drivers (Started s s' a)) h.streamingOn h'.streamingOn := by
  have hsession := congrArg (fun s : Driver.Session w => { s with core := { s.core with streaming := true } }) hst.session
  exact fun _ => ⟨rfl, hsession, hst.carried, hst.counted.congr rfl rfl, hst.playback, hst.capture, hst.pending⟩

theorem alike_stages (ha : a.Scripted) (hp : Emptied s.pb) :
    Stages a (Drivers (Alike s s' a.Silent)) (Drivers (Started s s' a)) :=
  ⟨Alike.implicitMode, primeLayout_follows ha, (startIsoPump_follows · hp), Started.streamingOn⟩

theorem startPumps_follows (ha : a.Scripted)
    (hd : ∀ capture, Reset s s' a (h.drv.resetCapture capture) (h'.drv.resetCapture capture)) (hp : Emptied s.pb) :
    Follows (Drivers (Started s s' a)) (h.startPumps a) (h'.startPumps a) :=
  (alike_stages ha hp).startPumps (startCapture_follows ha hd)

theorem line6Pumps_follows (h h' : Host w) (ha : a.Scripted) {playback capture : StreamFormat}
    (hd : Reset s s' a (h.drv.line6Reset playback capture) (h'.drv.line6Reset playback capture)) (hp : Emptied s.pb) :
    Follows (Drivers (Started s s' a)) (h.line6Pumps a playback capture) (h'.line6Pumps a playback capture) :=
  (alike_stages ha hp).line6Pumps
    (startCapturePump_follows { h.withDriver (h.drv.line6Reset playback capture) with eventThread := true }
      { h'.withDriver (h'.drv.line6Reset playback capture) with eventThread := true } ha hd)

/-! ### The claims -/

/-- The interfaces that are held, and what is claimed on the handle. -/
structure Claimed where
  streaming : Bool := false
  control : Option Nat := none
  capture : Option Nat := none
  claims : Finset Nat := ∅

def claimed (h : Host w) : Claimed where
  streaming := h.interfaceClaimed
  control := if h.controlInterfaceClaimed then some h.claimedControlIface else none
  capture := if h.captureInterfaceClaimed then some h.claimedCaptureIface else none
  claims := h.claims

def Claimed.withCapture (c : Claimed) (capture : StreamFormat) : Claimed :=
  { c with capture := some capture.interfaceNumber, claims := insert capture.interfaceNumber c.claims }

/-- What the playback half claims from nothing: the control interface only if there is one and libusb grants it. -/
def playbackClaimed (a : Answers w) (fmt : StreamFormat) : Claimed :=
  if fmt.controlInterfaceNum ≠ 0xFF ∧ a.claimInterface fmt.controlInterfaceNum then
    { streaming := true, control := some fmt.controlInterfaceNum
      claims := {fmt.controlInterfaceNum, fmt.interfaceNumber} }
  else { streaming := true, claims := {fmt.interfaceNumber} }

theorem Stopped.holdStreaming_claimed (hs : h.Stopped) (interfaceNumber : Nat) :
    (h.holdStreaming interfaceNumber).claimed = { streaming := true, claims := {interfaceNumber} } := by
  simp [Host.claimed, holdStreaming, hs.control, hs.capture, hs.claims]

theorem Stopped.claimControl_claimed (hs : h.Stopped) (fmt : StreamFormat) :
    ((h.holdStreaming fmt.interfaceNumber).claimControl a fmt).claimed = playbackClaimed a fmt := by
  have hheld := hs.holdStreaming_claimed fmt.interfaceNumber
  have hcontrol : (h.holdStreaming fmt.interfaceNumber).controlInterfaceClaimed = false := hs.control
  simp only [Host.claimed, Claimed.mk.injEq] at hheld
  obtain ⟨hstreaming, -, hcapture, hclaims⟩ := hheld
  unfold claimControl playbackClaimed
  generalize h.holdStreaming fmt.interfaceNumber = q at *
  by_cases hnone : fmt.controlInterfaceNum = 0xFF
  · simp [hnone, Host.claimed, hstreaming, hcontrol, hcapture, hclaims]
  · cases a.claimInterface fmt.controlInterfaceNum <;>
      simp [hnone, Host.claimed, hstreaming, hcontrol, hcapture, hclaims]

/-! ### From a stopped driver -/

/-- Two stopped drivers of the same setup: behind the same two resets they are alike. -/
theorem Stopped.reset (hs : h.Stopped) (hs' : h'.Stopped) (hsetup : h.setup = h'.setup) (fmt capture : StreamFormat) :
    Reset ((h.drv.start fmt).resetCapture {}) ((h'.drv.start fmt).resetCapture {}) a
      ((h.drv.start fmt).resetCapture capture) ((h'.drv.start fmt).resetCapture capture) := by
  intro packets frames
  simp only [setup, Setup.mk.injEq] at hsetup
  obtain ⟨-, -, -, -, hpb, hcap, hconfig, hcount, hquantum, hlimit, htarget, hheadroom, hreserve⟩ := hsetup
  refine ⟨⟨rfl, rfl⟩, ⟨rfl, rfl⟩, .congr (.refl _ _) rfl rfl, ?_, ⟨rfl, ?_, Ring.Same.reset hcap⟩, rfl, fun _ => rfl,
    ⟨rfl, rfl, ?_⟩, ?_, ⟨hs.pending, ?_⟩⟩
  · simp only [Playback.session, Driver.start, Driver.resetCapture, PlaybackSession.mk.injEq]
    exact ⟨trivial, hpb, trivial, trivial, trivial, hs.queued.trans hs'.queued.symm, htarget, hheadroom, hreserve⟩
  · exact hs.notCapturing.trans hs'.notCapturing.symm
  · exact fun i _ hi => absurd hi (Nat.not_lt_zero i)
  · simp only [Driver.core, Driver.start, Driver.resetCapture, Driver.withCapturePackets, Driver.withCaptureFrames,
      Core.mk.injEq]
    exact ⟨hconfig, hcount, hquantum, hlimit, trivial, trivial, hs.outs.1.trans hs'.outs.1.symm,
      hs.outs.2.trans hs'.outs.2.symm, hs.pending.trans hs'.pending.symm, hs.inflight.1.trans hs'.inflight.1.symm,
      hs.inflight.2.trans hs'.inflight.2.symm, trivial, trivial, trivial, hs.owned.trans hs'.owned.symm⟩
  · exact fun x hx => absurd (hs.owned ▸ hx) (Finset.notMem_empty x)

theorem Stopped.line6Reset (hs : h.Stopped) (hs' : h'.Stopped) (hsetup : h.setup = h'.setup)
    (playback capture : StreamFormat) :
    Reset (h.drv.line6Reset playback capture) (h'.drv.line6Reset playback capture) a
      (h.drv.line6Reset playback capture) (h'.drv.line6Reset playback capture) := by
  intro packets frames
  simp only [setup, Setup.mk.injEq] at hsetup
  obtain ⟨-, -, -, -, hpb, hcap, hconfig, hcount, hquantum, hlimit, htarget, hheadroom, hreserve⟩ := hsetup
  refine ⟨⟨rfl, rfl⟩, ⟨rfl, rfl⟩, .congr (.refl _ _) rfl rfl, ?_, ⟨rfl, ?_, Ring.Same.reset hcap⟩, rfl, fun _ => rfl,
    ⟨rfl, rfl, ?_⟩, ?_, ⟨rfl, ?_⟩⟩
  · simp only [Playback.session, Driver.line6Reset, PlaybackSession.mk.injEq]
    exact ⟨trivial, hpb, trivial, trivial, trivial, hs.queued.trans hs'.queued.symm, htarget, hheadroom, hreserve⟩
  · exact hs.notCapturing.trans hs'.notCapturing.symm
  · exact fun i _ hi => absurd hi (Nat.not_lt_zero i)
  · simp only [Driver.core, Driver.line6Reset, Driver.withCapturePackets, Driver.withCaptureFrames, Core.mk.injEq]
    exact ⟨hconfig, hcount, hquantum, hlimit, trivial, trivial, hs.outs.1.trans hs'.outs.1.symm,
      hs.outs.2.trans hs'.outs.2.symm, trivial, trivial, trivial, trivial, trivial, trivial, hs.owned.trans hs'.owned.symm⟩
  · exact fun x hx => absurd (hs.owned ▸ hx) (Finset.notMem_empty x)

theorem Stopped.startFormat_ok (hs : h.Stopped) (fmt : StreamFormat) :
    (h.startFormat a fmt).2 = (a.claimInterface fmt.interfaceNumber &&
      a.setInterfaceAltSetting fmt.interfaceNumber fmt.altSetting && a.setSampleRate) ∧
    ((h.startFormat a fmt).2 = true →
      (h.startFormat a fmt).1.drv = h.drv.start fmt ∧ (h.startFormat a fmt).1.claimed = playbackClaimed a fmt) := by
  unfold Host.startFormat
  rw [hs.claimStreaming fmt]
  cases hclaim : a.claimInterface fmt.interfaceNumber with
  | false => exact ⟨rfl, nofun⟩
  | true =>
    have hdrv : ((h.holdStreaming fmt.interfaceNumber).claimControl a fmt).drv = h.drv :=
      claimControl_drv _ a fmt
    have hclaimed := hs.claimControl_claimed (a := a) fmt
    simp only [if_true, Bool.not_true, Bool.false_eq_true, if_false]
    generalize (h.holdStreaming fmt.interfaceNumber).claimControl a fmt = q at *
    cases a.setInterfaceAltSetting fmt.interfaceNumber fmt.altSetting with
    | false => exact ⟨rfl, nofun⟩
    | true =>
      cases a.setSampleRate with
      | false => exact ⟨rfl, nofun⟩
      | true =>
        refine ⟨rfl, fun _ => ⟨?_, hclaimed⟩⟩
        show (q.drv.start fmt) = _
        rw [hdrv]

/-- A start that succeeds has found a format. -/
theorem Stopped.start_leaves (hs : h.Stopped) (a : Answers w) (req : StreamRequest) :
    Leaves (fun q => ∃ fmt, selectAltSetting a.config a.isHs req = .ok fmt ∧ q.drv = h.drv.start fmt ∧
      q.claimed = playbackClaimed a fmt) (h.start a req) := by
  rw [hs.start_eq]
  refine .gate rfl (.gate rfl ?_)
  cases selectAltSetting a.config a.isHs req with
  | error e => exact nofun
  | ok fmt => exact fun hok => ⟨hok, fmt, rfl, (hs.ready.startFormat_ok fmt).2 hok⟩

/-- The format is the same on both sides. -/
theorem Stopped.start_follows (hs : h.Stopped) (hs' : h'.Stopped) (hsetup : h.setup = h'.setup) (req : StreamRequest) :
    Follows (Drivers fun d d' => ∃ fmt, d = h.drv.start fmt ∧ d' = h'.drv.start fmt) (h.start a req) (h'.start a req) := by
  have hdevice : (!h'.device) = !h.device := congrArg (!·) (congrArg Setup.device hsetup).symm
  have hcapture : h'.drv.captureWake.valid = h.drv.captureWake.valid := (congrArg Setup.captureWakeValid hsetup).symm
  have hplayback : h'.drv.playbackWake.valid = h.drv.playbackWake.valid := (congrArg Setup.playbackWakeValid hsetup).symm
  have hstart := hs.start_eq (a := a) req
  have hstart' := hs'.start_eq (a := a) req
  rw [hcapture, hplayback] at hstart'
  simp only [hdevice] at hstart'
  rw [hstart, hstart']
  refine .gate rfl (.gate rfl ?_)
  cases selectAltSetting a.config a.isHs req with
  | error e => exact nofun
  | ok fmt =>
    intro hok
    obtain ⟨hresult, hdrv⟩ := hs.ready.startFormat_ok (a := a) fmt
    obtain ⟨hresult', hdrv'⟩ := hs'.ready.startFormat_ok (a := a) fmt
    have hok' := hresult'.trans (hresult.symm.trans hok)
    exact ⟨hok', fmt, (hdrv hok).1, (hdrv' hok').1⟩

/-- Behind the resets of the generic path nothing has been counted. -/
theorem start_statistics (d : Driver w) (fmt capture : StreamFormat) :
    ((d.start fmt).resetCapture capture).statistics = ⟨fun _ => 0, ⟨false, false, false⟩⟩ := by
  refine congrArg (Statistics.mk · ⟨false, false, false⟩) (funext fun k => ?_)
  cases k <;> rfl

theorem Stopped.startDuplex_follows (hs : h.Stopped) (hs' : h'.Stopped) (hsetup : h.setup = h'.setup) (ha : a.Scripted)
    (hprofile : h.line6Profile = false) (req : StreamRequest) :
    Follows (Drivers fun d d' =>
        ∃ fmt, Started ((h.drv.start fmt).resetCapture {}) ((h'.drv.start fmt).resetCapture {}) a d d')
      (h.startDuplex a req) (h'.startDuplex a req) := by
  have hprofile' : h'.line6Profile = false := (congrArg Setup.line6Profile hsetup).symm.trans hprofile
  unfold startDuplex
  rw [hprofile, if_neg Bool.false_ne_true, hprofile', if_neg Bool.false_ne_true]
  dsimp only
  refine .bind (hs.start_follows hs' hsetup req) rfl ?_
  rintro ⟨fmt, hdrv, hdrv'⟩
  have hreset (capture : StreamFormat) := hs.reset (a := a) hs' hsetup fmt capture
  rw [← hdrv, ← hdrv'] at hreset
  have hempty : Emptied ((h.start a req).1.drv.resetCapture {}).pb := by
    rw [hdrv]
    exact ⟨rfl, rfl, hs.queued⟩
  intro hok
  obtain ⟨hok', hst⟩ := startPumps_follows ha hreset hempty hok
  rw [hdrv, hdrv'] at hst
  exact ⟨hok', fmt, hst⟩

theorem Stopped.line6StartDuplex_follows (hs : h.Stopped) (hs' : h'.Stopped) (hsetup : h.setup = h'.setup)
    (ha : a.Scripted) :
    Follows (Drivers fun d d' => ∃ playback capture,
        Started (h.drv.line6Reset playback capture) (h'.drv.line6Reset playback capture) a d d')
      (h.line6StartDuplex a) (h'.line6StartDuplex a) := by
  have hdevice : h'.device = h.device := (congrArg Setup.device hsetup).symm
  have hidle {q : Host w} (hq : q.Stopped) : ¬(q.drv.streaming = true ∨ q.drv.cap.captureActive = true ∨
      q.drv.outCount ≠ 0 ∨ q.captureCount ≠ 0 ∨ q.eventThread = true ∨ q.drv.inflight ≠ 0 ∨ q.drv.captureInflight ≠ 0) := by
    simp [hq.notStreaming, hq.notCapturing, hq.outs, hq.captures, hq.eventThread, hq.inflight]
  have hfree {q : Host w} (hq : q.Stopped) : ¬q.interfaceClaimed = true := by
    rw [hq.streaming]
    exact Bool.false_ne_true
  unfold Host.line6StartDuplex
  rw [if_neg (hidle hs), if_neg (hidle hs'), hdevice]
  cases (if h.device then line6SelectFormat a.config a.isHs else none) with
  | none => exact nofun
  | some formats =>
    obtain ⟨playback, capture⟩ := formats
    dsimp only
    rw [if_neg (hfree hs), if_neg (hfree hs')]
    refine .gate rfl fun hok => ?_
    obtain ⟨hok', hst⟩ := line6Pumps_follows (h.holdStreaming playback.interfaceNumber)
      (h'.holdStreaming playback.interfaceNumber) ha (hs.line6Reset hs' hsetup playback capture)
      ⟨rfl, rfl, hs.queued⟩ hok
    exact ⟨hok', playback, capture, hst⟩

/-- What a session has to start with: nothing handed over, played, written or credited, nothing queued, and nothing in
the rings but what this start has captured. -/
structure Fresh (a : Answers w) (h : Host w) : Prop where
  captureLive : h.drv.cap.captureLive = false
  discard : h.drv.cap.startupCaptureDiscardFrames = 0
  credit : h.drv.pb.playbackCredit = 0
  written : h.drv.pb.writtenFrames = 0
  played : h.drv.pb.playedFrames = 0
  playbackRing : h.drv.pb.ring.contents = []
  captureTail : h.drv.cap.ring.tail = 0
  captureRing : a.Silent → h.drv.cap.ring.contents = []
  queued : h.drv.pb.queuedOutFrames = 0
  pending : h.drv.pending = []
  handover : ∀ keepFrames, (h.drv.cap.beginCaptureLive keepFrames).2 =
    if !h.drv.cap.captureActive ∨ h.drv.cap.stride = 0 then 0
    else h.drv.cap.ring.used / h.drv.cap.stride - keepFrames.toNat

/-- The stopped driver has nothing of an earlier session that the coming start does not reset. -/
structure Clear (h : Host w) : Prop where
  captureLive : h.drv.cap.captureLive = false
  discard : h.drv.cap.startupCaptureDiscardFrames = 0
  line6 : h.line6Profile = true →
    h.drv.pb.playbackCredit = 0 ∧ h.drv.pb.writtenFrames = 0 ∧ h.drv.pb.playedFrames = 0

theorem Started.symm {d d' : Driver w} (hst : Started s s' a d d') : Started s' s a d' d := by
  have hsession := hst.session
  have hplayback := congrArg Driver.Session.playback hsession
  have hhead := congrArg Driver.Session.captureHead hsession
  have htail := congrArg Driver.Session.captureTail hsession
  have hcore := congrArg Driver.Session.core hsession
  refine ⟨?_, ⟨hst.carried.2, hst.carried.1⟩, hst.counted.symm, ⟨?_, ?_, ?_⟩,
    ⟨htail.symm.trans hst.capture.1, fun ha => ?_⟩, ?_⟩
  · rw [hsession]
    rfl
  · exact (congrArg PlaybackSession.head hplayback).symm.trans hst.playback.1
  · exact (congrArg PlaybackSession.tail hplayback).symm.trans hst.playback.2.1
  · exact (congrArg PlaybackSession.queuedOutFrames hplayback).symm.trans hst.playback.2.2
  · exact hhead.symm.trans (hst.capture.2 ha)
  · exact (congrArg Core.pending hcore).symm.trans hst.pending

theorem Started.fresh_iff (hst : Started s s' a h.drv h'.drv) : h.Fresh a ↔ s.carried = ⟨false, 0, 0, 0, 0⟩ := by
  have hempty {r : Ring w} (hhead : r.head = 0) (htail : r.tail = 0) : r.contents = [] := by
    rw [Ring.contents, Ring.used, hhead, htail, Cursor.dist_self]
    rfl
  rw [← hst.carried.1]
  constructor
  · intro hf
    rw [Driver.carried, hf.captureLive, hf.discard, hf.credit, hf.written, hf.played]
  · intro hnone
    simp only [Driver.carried, Driver.Carried.mk.injEq] at hnone
    obtain ⟨hlive, hdiscard, hcredit, hwritten, hplayed⟩ := hnone
    refine ⟨hlive, hdiscard, hcredit, hwritten, hplayed, hempty hst.playback.1 hst.playback.2.1, hst.capture.1,
      fun ha => hempty (hst.capture.2 ha) hst.capture.1, hst.playback.2.2, hst.pending, fun keepFrames => ?_⟩
    simp only [Capture.beginCaptureLive, Capture.liveDiscard, hlive, Bool.false_eq_true, false_or]

/-- The two sessions are the same if the same was carried over and counted before. -/
theorem Started.session_iff {d d' : Driver w} (hst : Started s s' a d d') (hcarried : s.carried = s'.carried) :
    d.session = d'.session ↔ s.statistics = s'.statistics := by
  rw [← hst.counted.statistics_iff]
  constructor
  · intro hsame
    exact congrArg Driver.Session.statistics hsame
  · intro hsame
    rw [hst.session, hsame, hst.carried.1.trans (hcarried.trans hst.carried.2.symm)]
    rfl

theorem clear_iff_of_generic (hprofile : h.line6Profile = false) (fmt : StreamFormat) :
    h.Clear ↔ ((h.drv.start fmt).resetCapture {}).carried = ⟨false, 0, 0, 0, 0⟩ := by
  show _ ↔ (⟨h.drv.cap.captureLive, h.drv.cap.startupCaptureDiscardFrames, 0, 0, 0⟩ : Driver.Carried) = _
  simp only [Driver.Carried.mk.injEq, and_true]
  exact ⟨fun hc => ⟨hc.captureLive, hc.discard⟩,
    fun ⟨hlive, hdiscard⟩ => ⟨hlive, hdiscard, fun hl => by simp [hprofile] at hl⟩⟩

theorem clear_iff_of_line6 (hprofile : h.line6Profile = true) (playback capture : StreamFormat) :
    h.Clear ↔ (h.drv.line6Reset playback capture).carried = ⟨false, 0, 0, 0, 0⟩ := by
  show _ ↔ h.drv.carried = _
  simp only [Driver.carried, Driver.Carried.mk.injEq]
  constructor
  · intro hc
    exact ⟨hc.captureLive, hc.discard, hc.line6 hprofile⟩
  · rintro ⟨hlive, hdiscard, hrest⟩
    exact ⟨hlive, hdiscard, fun _ => hrest⟩

/-- Line6 leaves the statistics as they are. -/
theorem line6Reset_statistics (d : Driver w) (playback capture : StreamFormat) :
    (d.line6Reset playback capture).statistics = d.statistics :=
  congrArg (Statistics.mk · d.latches) (funext fun k => by cases k <;> rfl)

/-- Two stopped drivers of the same setup, and a start of each with the same answers that succeeds for the first. -/
theorem Stopped.startDuplex_alike (hs : h.Stopped) (hs' : h'.Stopped) (hsetup : h.setup = h'.setup) (ha : a.Scripted)
    (req : StreamRequest) (hok : (h.startDuplex a req).2 = true) :
    ∃ s s' : Driver w, (h'.startDuplex a req).2 = true ∧
      Started s s' a (h.startDuplex a req).1.drv (h'.startDuplex a req).1.drv ∧
      (h.Clear ↔ s.carried = ⟨false, 0, 0, 0, 0⟩) ∧ (h'.Clear ↔ s'.carried = ⟨false, 0, 0, 0, 0⟩) ∧
      (s.statistics = s'.statistics ↔ (h.line6Profile = true → h.drv.statistics = h'.drv.statistics)) := by
  have hprofile' : h'.line6Profile = h.line6Profile := (congrArg Setup.line6Profile hsetup).symm
  cases hprofile : h.line6Profile with
  | false =>
    obtain ⟨hok', fmt, hst⟩ := hs.startDuplex_follows hs' hsetup ha hprofile req hok
    refine ⟨_, _, hok', hst, clear_iff_of_generic hprofile fmt, clear_iff_of_generic (hprofile'.trans hprofile) fmt, ?_⟩
    rw [start_statistics, start_statistics]
    exact ⟨fun _ hline6 => absurd hline6 Bool.false_ne_true, fun _ => rfl⟩
  | true =>
    have hline6 (q : Host w) (hq : q.line6Profile = true) (hreq : line6Request req = true) :
        q.startDuplex a req = q.line6StartDuplex a := by
      rw [startDuplex, if_pos hq, if_pos hreq]
    have hreq : line6Request req = true := by
      by_contra hno
      rw [startDuplex, if_pos hprofile, if_neg hno] at hok
      cases hok
    rw [hline6 h hprofile hreq] at hok
    obtain ⟨hok', playback, capture, hst⟩ := hs.line6StartDuplex_follows hs' hsetup ha hok
    rw [← hline6 h' (hprofile'.trans hprofile) hreq] at hok' hst
    rw [← hline6 h hprofile hreq] at hst
    refine ⟨_, _, hok', hst, clear_iff_of_line6 hprofile playback capture,
      clear_iff_of_line6 (hprofile'.trans hprofile) playback capture, ?_⟩
    rw [line6Reset_statistics, line6Reset_statistics]
    exact ⟨fun hsame _ => hsame, fun hsame => hsame rfl⟩

/-! ### What a start leaves in the host -/

/-- What a start from a stopped driver has claimed if it succeeds. -/
def startClaimed (a : Answers w) (line6Profile : Bool) (req : StreamRequest) : Claimed :=
  if line6Profile then
    match line6SelectFormat a.config a.isHs with
    | none => {}
    | some (playback, _) => { streaming := true, claims := {playback.interfaceNumber} }
  else
    match selectAltSetting a.config a.isHs req with
    | .error _ => {}
    | .ok fmt => (a.selectCaptureAltSetting fmt).elim {} (playbackClaimed a fmt).withCapture

/-- `failures` is the count of lifecycle failures, `captures` the number of capture transfers. -/
structure Capturing (c : Claimed) (failures captures : Nat) (q : Host w) : Prop where
  claimed : q.claimed = c
  lifecycleFailures : q.lifecycleFailures = failures
  captureCount : q.captureCount = captures

structure Running (c : Claimed) (failures captures : Nat) (q : Host w) : Prop extends Capturing c failures captures q where
  eventThread : q.eventThread = true
  microframesPerSec : q.microframesPerSec = q.drv.pb.format.microframesPerSec

theorem allocateCaptures_leaves (h : Host w) (packets : Nat) (a : Answers w) :
    Leaves (Capturing h.claimed h.lifecycleFailures h.drv.geometry.transferCount) (h.allocateCaptures packets a) := by
  unfold allocateCaptures
  dsimp only
  split
  · exact nofun
  rename_i hall
  have hle := (List.takeWhile_sublist (l := List.range h.drv.geometry.transferCount) a.captureAlloc).length_le
  rw [List.length_range] at hle
  split
  · exact fun _ => ⟨rfl, rfl, rfl, Nat.le_antisymm hle (Nat.not_lt.1 hall)⟩
  · exact nofun

theorem startCapturePump_leaves (h : Host w) (a : Answers w) :
    Leaves (Capturing h.claimed h.lifecycleFailures h.drv.geometry.transferCount) (h.startCapturePump a) := by
  unfold startCapturePump
  dsimp only
  exact .gate rfl (.gate rfl (allocateCaptures_leaves _ _ a))

/-- The capture half of a generic start clears the count of failures. -/
theorem startCapture_leaves (h : Host w) (a : Answers w) :
    Leaves (Capturing ((a.selectCaptureAltSetting h.drv.pb.format).elim {} h.claimed.withCapture) 0
      h.drv.geometry.transferCount) (h.startCapture a) := by
  unfold startCapture
  cases a.selectCaptureAltSetting h.drv.pb.format with
  | none => exact nofun
  | some capture =>
    exact .gate rfl (.gate rfl (.gate rfl (startCapturePump_leaves ((h.claimCapture capture).resetCapture capture) a)))

section

variable {c : Claimed} {failures captures : Nat}

theorem Capturing.primeLayout (hc : h.Capturing c failures captures) (a : Answers w) :
    Leaves (Capturing c failures captures) (h.primeLayout a) := by
  unfold Host.primeLayout
  exact .gate rfl fun _ => ⟨rfl, hc.claimed, hc.lifecycleFailures, hc.captureCount⟩

theorem Capturing.startIsoPump (hc : h.Capturing c failures captures) (a : Answers w) :
    Leaves (Running c failures captures) (h.startIsoPump a) := by
  unfold Host.startIsoPump
  cases he : h.drv.startIsoPump a.maxPacket a.alloc with
  | none => exact nofun
  | some drv =>
    have hformat : drv.pb.format = h.drv.pb.format := by rw [(Driver.startIsoPump_keeps he).2.1]
    refine fun _ => ⟨rfl, ⟨hc.claimed, hc.lifecycleFailures, hc.captureCount⟩, rfl, ?_⟩
    show h.drv.pb.format.microframesPerSec = drv.pb.format.microframesPerSec
    rw [hformat]

theorem Running.streamingOn (hr : h.Running c failures captures) : Leaves (Running c failures captures) h.streamingOn :=
  fun _ => ⟨rfl, ⟨hr.claimed, hr.lifecycleFailures, hr.captureCount⟩, hr.eventThread, hr.microframesPerSec⟩

theorem running_stages (a : Answers w) (c : Claimed) (failures captures : Nat) :
    Stages a (fun q q' => q = q' ∧ q.Capturing c failures captures) (fun q q' => q = q' ∧ q.Running c failures captures) :=
  .of_leaves (·.primeLayout a) (·.startIsoPump a) Running.streamingOn

end

theorem startPumps_leaves (h : Host w) (a : Answers w) :
    Leaves (Running ((a.selectCaptureAltSetting h.drv.pb.format).elim {} h.claimed.withCapture) 0
      h.drv.geometry.transferCount) (h.startPumps a) :=
  (running_stages ..).startPumps_leaves (startCapture_leaves h a)

theorem line6Pumps_leaves (h : Host w) (a : Answers w) (playback capture : StreamFormat) :
    Leaves (Running h.claimed h.lifecycleFailures h.drv.geometry.transferCount) (h.line6Pumps a playback capture) :=
  (running_stages ..).line6Pumps_leaves (startCapturePump_leaves
    { h.withDriver (h.drv.line6Reset playback capture) with eventThread := true } a)

/-- A generic start begins to count lifecycle failures anew. -/
theorem Stopped.startDuplex_leaves (hs : h.Stopped) (a : Answers w) (req : StreamRequest) :
    Leaves (Running (startClaimed a h.line6Profile req) (if h.line6Profile then h.lifecycleFailures else 0)
      h.drv.geometry.transferCount) (h.startDuplex a req) := by
  unfold startDuplex startClaimed
  cases h.line6Profile with
  | false =>
    simp only [Bool.false_eq_true, if_false]
    refine .bind (hs.start_leaves a req) rfl ?_
    rintro ⟨fmt, hselect, hdrv, hclaimed⟩
    have hpumps := startPumps_leaves (h.start a req).1 a
    rw [hclaimed, hdrv] at hpumps
    rw [hselect]
    exact hpumps
  | true =>
    simp only [if_true]
    by_cases hreq : line6Request req = true
    · rw [if_pos hreq]
      unfold Host.line6StartDuplex
      refine .gate rfl ?_
      cases h.device with
      | false => exact nofun
      | true =>
        rw [if_pos rfl]
        cases line6SelectFormat a.config a.isHs with
        | none => exact nofun
        | some formats =>
          have hpumps := line6Pumps_leaves (h.holdStreaming formats.1.interfaceNumber) a formats.1 formats.2
          rw [hs.holdStreaming_claimed] at hpumps
          dsimp only
          rw [if_neg (by simp [hs.streaming])]
          exact .gate rfl hpumps
    · rw [if_neg hreq]
      exact nofun

end Host

/-! ### The meters -/

/-- On a quiet driver a completion measures nothing, drains nothing and neither defers nor releases a transfer. -/
theorem Driver.Quiet.unmeasured {w : Nat} {d : Driver w} (h : d.Quiet) (now : Nat) {act : DriverAct}
    (hact : act.ofDevice = true) : d.completion now act = [] ∧ d.written act = [] ∧ d.stepLog act = [] := by
  cases act with
  | outDone i status results ok =>
    have hi : .out i ∉ d.usb.owned := fun hi => Bool.noConfusion (h.owned _ hi)
    refine ⟨?_, rfl, ?_⟩
    · exact if_neg fun hall => hi hall.1
    · exact if_neg hi
  | feedbackDone k x ok => exact ⟨rfl, rfl, rfl⟩
  | captureDone j x ok =>
    refine ⟨rfl, rfl, ?_⟩
    have hpending : ((d.release (.capture j)).receiveCapture x).pending = [] := h.pending
    simp only [Driver.stepLog, Driver.onCaptureLog, hpending, Driver.submitPendingLog, ite_self]
  | _ => cases hact

/-- What else `start` stores afresh: the meters of the playback side, the stride of the snapshot, the text of the last
error and the rates that the device has listed. -/
structure SessionMeters where
  envelope : Envelope := {}
  transferDiscontinuities : Nat := 0
  pendingHighWater : Nat := 0
  maxPendingAgeNs : Nat := 0
  playbackFrameStride : Nat := 1
  lastErrorDetail : String := ""
  supportedRates : List ClockRateRange := []

/-- The host with the meters. -/
structure Measured (w : Nat) extends Host w where
  meters : SessionMeters := {}

namespace Measured

open Host

variable {w : Nat} {m m' r : Measured w} {a : Answers w}

/-- The stores of a `start` that succeeds. -/
def resetMeters (format : StreamFormat) (supportedRates : List ClockRateRange) : SessionMeters where
  playbackFrameStride := max 1 format.frameStride
  supportedRates

/-- A `startDuplex` that succeeds; `supportedRates` are the rates that the device lists in it. Only `start` writes to the
meters: the completions that arrive before the output is submitted measure nothing (`Driver.Quiet.unmeasured`). -/
def startDuplex (m : Measured w) (a : Answers w) (supportedRates : List ClockRateRange) (req : StreamRequest) :
    Option (Measured w) :=
  match m.toHost.startDuplex a req with
  | (h, true) => some ⟨h, if m.line6Profile then m.meters else resetMeters h.drv.pb.format supportedRates⟩
  | (_, false) => none

/-- What the generic start stores afresh and the start of the Line6 profile keeps. -/
structure Kept where
  statistics : Statistics
  lifecycleFailures : Nat
  lastError : StartError
  meters : SessionMeters

def kept (m : Measured w) : Kept := ⟨m.drv.statistics, m.lifecycleFailures, m.lastError, m.meters⟩

/-- The state of a session right behind its start. -/
structure Session (w : Nat) where
  driver : Driver.Session w
  claimed : Claimed
  microframesPerSec : Nat
  captureCount : Nat
  eventThread : Bool
  lifecycleFailures : Nat
  lastError : StartError
  meters : SessionMeters

def session (m : Measured w) : Session w where
  driver := m.drv.session
  claimed := m.claimed
  microframesPerSec := m.microframesPerSec
  captureCount := m.captureCount
  eventThread := m.eventThread
  lifecycleFailures := m.lifecycleFailures
  lastError := m.lastError
  meters := m.meters

theorem startDuplex_eq_some {supportedRates : List ClockRateRange} {req : StreamRequest} :
    m.startDuplex a supportedRates req = some r ↔ (m.toHost.startDuplex a req).2 = true ∧
      r = ⟨(m.toHost.startDuplex a req).1, if m.line6Profile then m.meters
        else resetMeters (m.toHost.startDuplex a req).1.drv.pb.format supportedRates⟩ := by
  unfold startDuplex
  generalize m.toHost.startDuplex a req = q
  obtain ⟨h, ok⟩ := q
  cases ok with
  | false => exact ⟨fun he => (by cases he), fun he => absurd he.1 Bool.false_ne_true⟩
  | true =>
    simp only [Option.some.injEq, true_and]
    exact eq_comm

/-- Two stopped drivers of the same setup, whatever came before, and a start with the same answers that succeeds for the
first: it succeeds for the second and leaves the same fresh session in both, if and only if neither has anything left
that a start does not reset, and with the Line6 profile both have the same counters, latches, meters and error code. -/
theorem startDuplex_independent_iff (hs : m.toHost.Stopped) (hs' : m'.toHost.Stopped)
    (hsetup : m.toHost.setup = m'.toHost.setup) (ha : a.Scripted) (supportedRates : List ClockRateRange)
    (req : StreamRequest) (hok : m.startDuplex a supportedRates req = some r) :
    (∃ r', m'.startDuplex a supportedRates req = some r' ∧ r.session = r'.session ∧ r.toHost.Fresh a ∧ r'.toHost.Fresh a) ↔
      m.toHost.Clear ∧ m'.toHost.Clear ∧ (m.line6Profile = true → m.kept = m'.kept) := by
  obtain ⟨hfirst, rfl⟩ := startDuplex_eq_some.1 hok
  obtain ⟨s, s', hsecond, hst, hclear, hclear', hstatistics⟩ := hs.startDuplex_alike hs' hsetup ha req hfirst
  have hprofile : m'.line6Profile = m.line6Profile := (congrArg Setup.line6Profile hsetup).symm
  have hformat : (m.toHost.startDuplex a req).1.drv.pb.format = (m'.toHost.startDuplex a req).1.drv.pb.format :=
    congrArg (fun t : Driver.Session w => t.playback.format) hst.session
  have hcount : m'.drv.geometry.transferCount = m.drv.geometry.transferCount := (congrArg Setup.transferCount hsetup).symm
  obtain ⟨-, ⟨hclaimed, hfailures, hcaptures⟩, hthread, hrate⟩ := hs.startDuplex_leaves a req hfirst
  obtain ⟨-, ⟨hclaimed', hfailures', hcaptures'⟩, hthread', hrate'⟩ := hs'.startDuplex_leaves a req hsecond
  have herror := (startDuplex_reports m.toHost a req).kept hfirst
  have herror' := (startDuplex_reports m'.toHost a req).kept hsecond
  rw [errorBefore] at herror herror'
  simp only [startDuplex_eq_some.2 ⟨hsecond, rfl⟩, Option.some.injEq, exists_eq_left']
  rw [hst.fresh_iff, hst.symm.fresh_iff, ← hclear, ← hclear']
  have hsession (hc : m.toHost.Clear) (hc' : m'.toHost.Clear) :=
    hst.session_iff ((hclear.1 hc).trans (hclear'.1 hc').symm)
  simp only [session, Session.mk.injEq, hclaimed, hclaimed', hfailures, hfailures', hcaptures, hcaptures', hthread,
    hthread', hrate, hrate', herror, herror', kept, Kept.mk.injEq, hprofile, hcount, ← hformat, true_and]
  constructor
  · rintro ⟨⟨hdriver, hsame⟩, hc, hc'⟩
    refine ⟨hc, hc', fun hline6 => ⟨hstatistics.1 ((hsession hc hc').1 hdriver) hline6, ?_⟩⟩
    simpa only [if_pos hline6] using hsame
  · rintro ⟨hc, hc', hkept⟩
    refine ⟨⟨(hsession hc hc').2 (hstatistics.2 fun hline6 => (hkept hline6).1), ?_⟩, hc, hc'⟩
    cases hline6 : m.line6Profile with
    | false => exact ⟨rfl, rfl, rfl⟩
    | true => exact (hkept hline6).2

/-! ### Two histories of a stereo device -/

/-- A start succeeds, and the capture transfers come back when they are cancelled. -/
def stereoDuplex : Answers 64 where
  config := some uac1Stereo
  isHs := false
  selectCaptureAltSetting := fun playback => some { playback with interfaceNumber := 2 }
  mps := 192
  maxPacket := 192
  others
    | .stopCapture, _ => (List.range kDefaultNumTransfers).map fun j => cancelled (.capture j)
    | _, _ => []

theorem stereoDuplex_scripted : stereoDuplex.Scripted := by
  refine ⟨fun place d act hact => ?_, fun place d d' => by cases place <;> rfl⟩
  cases place with
  | stopCapture =>
    obtain ⟨j, -, rfl⟩ := List.mem_map.1 hact
    rfl
  | _ => exact absurd hact List.not_mem_nil

def justOpened : Host 64 := run step (constructed defaultRing) [.open_ {} {} 5 0]

/-- A session in which `act` happens, and its end. -/
def afterSession (act : DriverAct) : Host 64 :=
  run step justOpened [.startDuplex stereoDuplex ⟨48000, 16, 2, 2⟩, .driver act, .stop stereoDuplex]

/-- A session that wrote a frame and ended leaves no trace in the next one. -/
theorem startDuplex_independent_written :
    let m : Measured 64 := ⟨justOpened, {}⟩
    let m' : Measured 64 := ⟨afterSession (.writePcm [1, 2, 3, 4] 1), {}⟩
    ∃ r r', m.startDuplex stereoDuplex [] ⟨48000, 16, 2, 2⟩ = some r ∧
      m'.startDuplex stereoDuplex [] ⟨48000, 16, 2, 2⟩ = some r' ∧ r.session = r'.session ∧
      r'.toHost.Fresh stereoDuplex := by
  intro m m'
  have hs : m.toHost.Stopped := opened_stopped
  have hs' : m'.toHost.Stopped := by
    refine ⟨⟨?_, ?_, ?_, ?_, ?_, ?_, ?_, ?_, ?_⟩, ?_, ?_, ?_, ?_, ?_⟩ <;> decide +kernel
  have hclear : m.toHost.Clear := ⟨rfl, rfl, nofun⟩
  have hclear' : m'.toHost.Clear := ⟨by decide +kernel, by decide +kernel, nofun⟩
  have hok : (m.toHost.startDuplex stereoDuplex ⟨48000, 16, 2, 2⟩).2 = true := by decide +kernel
  obtain ⟨r, hr⟩ : ∃ r, m.startDuplex stereoDuplex [] ⟨48000, 16, 2, 2⟩ = some r :=
    ⟨_, startDuplex_eq_some.2 ⟨hok, rfl⟩⟩
  obtain ⟨r', hr', hsession, -, hfresh⟩ := (startDuplex_independent_iff hs hs' rfl stereoDuplex_scripted []
    ⟨48000, 16, 2, 2⟩ hr).2 ⟨hclear, hclear', nofun⟩
  exact ⟨r, r', hr, hr', hsession, hfresh⟩

/-- A session that handed capture over and ended: the next one starts as live, and its own hand-over does nothing. -/
theorem startDuplex_handover_lost :
    let m : Measured 64 := ⟨justOpened, {}⟩
    let m' : Measured 64 := ⟨afterSession (.beginCaptureLive 0), {}⟩
    m.toHost.Stopped ∧ m'.toHost.Stopped ∧ m.toHost.setup = m'.toHost.setup ∧ stereoDuplex.Scripted ∧
      ∃ r r', m.startDuplex stereoDuplex [] ⟨48000, 16, 2, 2⟩ = some r ∧
        m'.startDuplex stereoDuplex [] ⟨48000, 16, 2, 2⟩ = some r' ∧ r.drv.cap.captureLive = false ∧
        r'.drv.cap.captureLive = true ∧ (∀ keepFrames, (r'.drv.cap.beginCaptureLive keepFrames).2 = 0) ∧
        r.session ≠ r'.session := by
  have hs' : (afterSession (.beginCaptureLive 0)).Stopped := by
    refine ⟨⟨?_, ?_, ?_, ?_, ?_, ?_, ?_, ?_, ?_⟩, ?_, ?_, ?_, ?_, ?_⟩ <;> decide +kernel
  have hok : (justOpened.startDuplex stereoDuplex ⟨48000, 16, 2, 2⟩).2 = true := by decide +kernel
  have hok' : ((afterSession (.beginCaptureLive 0)).startDuplex stereoDuplex ⟨48000, 16, 2, 2⟩).2 = true := by
    decide +kernel
  have hlive : (justOpened.startDuplex stereoDuplex ⟨48000, 16, 2, 2⟩).1.drv.cap.captureLive = false := by decide +kernel
  have hlive' : ((afterSession (.beginCaptureLive 0)).startDuplex stereoDuplex ⟨48000, 16, 2, 2⟩).1.drv.cap.captureLive =
      true := by decide +kernel
  refine ⟨opened_stopped, hs', rfl, stereoDuplex_scripted, _, _, startDuplex_eq_some.2 ⟨hok, rfl⟩,
    startDuplex_eq_some.2 ⟨hok', rfl⟩, hlive, hlive', fun keepFrames => ?_, fun hsame => ?_⟩
  · simp only [Capture.beginCaptureLive, Capture.liveDiscard, hlive', true_or, if_true]
  · have hcarried := congrArg (fun t : Session 64 => t.driver.carried.captureLive) hsame
    exact Bool.false_ne_true (hlive.symm.trans (hcarried.trans hlive'))

end Measured

end UacDriver

import UacDriver.CaptureReads
import UacDriver.FormatsKept
import UacDriver.Lib.Meters
import UacDriver.PackLayout

/-!
# The adapter over the driver

`DirectUsbOutput` keeps the sample format of the session next to the driver and packs by its own copy. `Adapter` is the
class with the driver inside. In every history of its calls, with whatever the event thread does in between, a quantum
that it publishes is packed in the format that the device has negotiated: the copy is taken by a `start` that succeeds
alone, and whatever changes the format of the driver stops the adapter first. Its two meters say why quanta were dropped.
-/

namespace UacDriver

open Runs

variable {w : Nat}

/-! ### The adapter -/

namespace DirectUsbOutput

/-- The test of the arguments in `start`, the open device apart. -/
def requestRefused (sampleRate bitsPerSample bytesPerSample channels outputPair : Int) : Bool :=
  decide (sampleRate ≤ 0 ∨ (bitsPerSample ≠ 16 ∧ bitsPerSample ≠ 24 ∧ bitsPerSample ≠ 32) ∨
    bytesPerSample < validBytes bitsPerSample.toNat ∨ bytesPerSample > kMaxSubslotBytes ∨
    channels < kChannels ∨ channels > kMaxDeviceChannels ∨ outputPair < 0 ∨ outputPair * 2 + 1 ≥ channels)

/-- The test of the negotiated formats in `start`. -/
def formatRefused (outputPair : Int) (playback capture : StreamFormat) : Bool :=
  decide (playback.channels < kChannels ∨ playback.channels > kMaxDeviceChannels ∨
    capture.channels = 0 ∨ capture.channels > kMaxDeviceChannels ∨
    (capture.bitsPerSample ≠ 16 ∧ capture.bitsPerSample ≠ 24 ∧ capture.bitsPerSample ≠ 32) ∨
    capture.bytesPerSample < validBytes capture.bitsPerSample ∨ capture.bytesPerSample > kMaxSubslotBytes ∨
    outputPair * 2 + 1 ≥ playback.channels)

end DirectUsbOutput

/-- `driver_` and the fields of `DirectUsbOutput` that its calls use. -/
structure Adapter (w : Nat) where
  host : Host w
  fmt : DirectUsbOutput := {}
  accepting : Bool := false
  streaming : Bool := false
  /-- Only ever compared with 1, the credit policy. -/
  admissionPolicy : Int := 0
  playbackQuantumDrops : Nat := 0
  minAdmissionMargin : Int := kIntMax

/-- The calls of the adapter, a driver call within each with its own answers, and what the driver does between them. -/
inductive AdapterAct (w : Nat) (α : Type) where
  | open_ (a₁ a₂ a₃ a₄ : Answers w) (o : OpenAnswers) (fd driverCode : Int)
  | close (a₁ a₂ : Answers w)
  | configureUserspaceBuffers (c : UserspaceBufferConfig)
  | setUserspaceBufferConfig (frames : Int) (c : UserspaceBufferConfig) (periodMultiplier : Int)
  | setAdmissionPolicy (policy : Int)
  | resetEnvelopeMetrics
  | start (a₁ a₂ a₃ : Answers w) (sampleRate bitsPerSample bytesPerSample channels outputPair : Int)
  | startPlayback (a : PlaybackAnswers w)
  | requestStop
  | stop (a : Answers w)
  | submitQuantum (left right : Nat → α) (frames : Int) (chargeCredit : Bool)
  | readInputChannels (limit : Nat) (destinationChannels frames : Int)
  | driver (a : DriverAct)

namespace Adapter

variable (s : Adapter w)

def requestStop : Adapter w :=
  { s with accepting := false, streaming := false, host := s.host.withDriver s.host.drv.requestStop }

/-- `stop`, with no writer inside to wait for. -/
def stop (a : Answers w) : Adapter w := { s with accepting := false, streaming := false, host := s.host.stop a }

def close (a₁ a₂ : Answers w) : Adapter w :=
  let s₁ := s.stop a₁
  { s₁ with host := s₁.host.close a₂ }

def open_ (a₁ a₂ a₃ a₄ : Answers w) (o : OpenAnswers) (fd driverCode : Int) : Adapter w × Bool :=
  if fd < 0 then (s, false)
  else
    let s₁ := (s.stop a₁).close a₂ a₃
    let (host, opened) := s₁.host.open_ a₄ o fd driverCode
    if !opened then ({ s₁ with host }, false) else ({ s₁ with host, accepting := false }, true)

def start (a₁ a₂ a₃ : Answers w) (sampleRate bitsPerSample bytesPerSample channels outputPair : Int) : Adapter w × Bool :=
  if !s.host.device ∨ DirectUsbOutput.requestRefused sampleRate bitsPerSample bytesPerSample channels outputPair then (s, false)
  else
    let s₁ := s.stop a₁
    let (host, started) := s₁.host.startDuplex a₂ ⟨sampleRate, bitsPerSample, channels, bytesPerSample⟩
    if !started then ({ s₁ with host }, false)
    else
      let deviceChannels := host.drv.pb.format.channels
      let s₂ := { s₁ with
        host
        fmt := { s₁.fmt with
          formatBits := bitsPerSample.toNat, formatBytes := bytesPerSample.toNat, deviceChannels } }
      if DirectUsbOutput.formatRefused outputPair host.drv.pb.format host.drv.cap.format then
        ({ s₂ with host := s₂.host.stop a₃ }, false)
      else
        ({ s₂ with
            fmt := { s₂.fmt with outputPair := outputPair.toNat }
            accepting := true, playbackQuantumDrops := 0, minAdmissionMargin := kIntMax, streaming := true }, true)

def startPlayback (a : PlaybackAnswers w) : Adapter w × Bool :=
  let (host, started) := s.host.startPlayback a
  ({ s with host }, started)

def isStreaming : Bool := s.streaming && s.host.drv.streaming

def resetEnvelopeMetrics : Adapter w :=
  { s with minAdmissionMargin := kIntMax, host := s.host.withDriver s.host.drv.resetBurst }

def minAdmissionMarginFrames : Int := if s.minAdmissionMargin = kIntMax then 0 else s.minAdmissionMargin

/-- The early return of `submitQuantum`. -/
def turnsAway (frames : Int) : Bool := decide (frames ≤ 0 ∨ frames > kMaxFramesPerWrite) || !s.accepting

section Pack

variable {α : Type} (quantise : (bits : Nat) → α → BitVec bits)

def submitQuantum (left right : Nat → α) (frames : Int) (chargeCredit : Bool) : Adapter w × Bool :=
  if s.turnsAway frames then (s, false)
  else
    let margin := s.host.drv.pb.writableFrames - frames
    let (pb, submitted) := s.fmt.submitQuantum quantise s.host.drv.pb s.accepting s.admissionPolicy.toNat left right frames
      chargeCredit
    ({ s with
        host := s.host.withDriver { s.host.drv with pb }
        minAdmissionMargin := min s.minAdmissionMargin margin
        playbackQuantumDrops := if submitted then s.playbackQuantumDrops else s.playbackQuantumDrops + 1 }, submitted)

def readInputChannels (limit : Nat) (destinationChannels frames : Int) :
    Adapter w × Option (List (Option (List Int))) :=
  let (cap, planes) := DirectUsbOutput.readInputChannels s.host.drv.cap limit destinationChannels frames
  ({ s with host := s.host.withDriver { s.host.drv with cap } }, planes)

def step (s : Adapter w) : AdapterAct w α → Adapter w
  | .open_ a₁ a₂ a₃ a₄ o fd driverCode => (s.open_ a₁ a₂ a₃ a₄ o fd driverCode).1
  | .close a₁ a₂ => s.close a₁ a₂
  | .configureUserspaceBuffers c => { s with host := (s.host.configureUserspaceBuffers c).1 }
  | .setUserspaceBufferConfig frames c periodMultiplier =>
    { s with host := s.host.setUserspaceBufferConfig frames c periodMultiplier }
  | .setAdmissionPolicy policy => { s with admissionPolicy := policy }
  | .resetEnvelopeMetrics => s.resetEnvelopeMetrics
  | .start a₁ a₂ a₃ sampleRate bitsPerSample bytesPerSample channels outputPair =>
    (s.start a₁ a₂ a₃ sampleRate bitsPerSample bytesPerSample channels outputPair).1
  | .startPlayback a => (s.startPlayback a).1
  | .requestStop => s.requestStop
  | .stop a => s.stop a
  | .submitQuantum left right frames chargeCredit => (s.submitQuantum quantise left right frames chargeCredit).1
  | .readInputChannels limit destinationChannels frames => (s.readInputChannels limit destinationChannels frames).1
  | .driver a => { s with host := s.host.withDriver (s.host.drv.step a) }

end Pack

variable {s} in
theorem turnsAway_iff {frames : Int} :
    s.turnsAway frames = false ↔ 0 < frames ∧ frames ≤ kMaxFramesPerWrite ∧ s.accepting = true := by
  simp [turnsAway, and_assoc]

/-- A start that succeeds. -/
def startsAnew {α : Type} (s : Adapter w) : AdapterAct w α → Bool
  | .start a₁ a₂ a₃ sampleRate bitsPerSample bytesPerSample channels outputPair =>
    (s.start a₁ a₂ a₃ sampleRate bitsPerSample bytesPerSample channels outputPair).2
  | _ => false

/-- The adapter as constructed. -/
def constructed (z : RingSize w) : Adapter w := { host := .constructed z }

/-- The playback format of the driver, in the form in which the adapter packs. -/
def negotiated : DirectUsbOutput where
  formatBits := s.host.drv.pb.format.bitsPerSample
  formatBytes := s.host.drv.pb.format.bytesPerSample
  deviceChannels := s.host.drv.pb.format.channels
  outputPair := s.fmt.outputPair

/-! ### The copy is the driver's format -/

/-- While quanta are accepted, the copy of the format is the driver's, and both formats have passed their checks. -/
structure Agrees : Prop where
  fits : s.host.drv.RingFits
  format : s.accepting = true → s.fmt = s.negotiated ∧ s.fmt.Accepted ∧ DirectUsbOutput.CaptureAccepted s.host.drv.cap.format

variable {s}

/-- An `open` of no descriptor does nothing, any other stops the adapter. -/
theorem open_cases (s : Adapter w) (a₁ a₂ a₃ a₄ : Answers w) (o : OpenAnswers) (fd driverCode : Int) :
    (s.open_ a₁ a₂ a₃ a₄ o fd driverCode).1 = s ∨ (s.open_ a₁ a₂ a₃ a₄ o fd driverCode).1.accepting = false := by
  unfold open_
  dsimp only
  split
  · exact .inl rfl
  split
  · exact .inr rfl
  · exact .inr rfl

/-- A start that fails has been refused at once, or has stopped the adapter. -/
theorem start_cases (s : Adapter w) (a₁ a₂ a₃ : Answers w)
    (sampleRate bitsPerSample bytesPerSample channels outputPair : Int)
    (hno : (s.start a₁ a₂ a₃ sampleRate bitsPerSample bytesPerSample channels outputPair).2 = false) :
    (s.start a₁ a₂ a₃ sampleRate bitsPerSample bytesPerSample channels outputPair).1 = s ∨
      (s.start a₁ a₂ a₃ sampleRate bitsPerSample bytesPerSample channels outputPair).1.accepting = false := by
  unfold start at hno ⊢
  dsimp only at hno ⊢
  split_ifs at hno ⊢
  · exact .inl rfl
  · exact .inr rfl
  · exact .inr rfl

theorem readInputChannels_steady (s : Adapter w) (limit : Nat) (destinationChannels frames : Int) :
    Driver.Steady s.host.drv (s.readInputChannels limit destinationChannels frames).1.host.drv := by
  have hformat : (DirectUsbOutput.readInputChannels s.host.drv.cap limit destinationChannels frames).1.format =
      s.host.drv.cap.format := by
    unfold DirectUsbOutput.readInputChannels
    dsimp only
    split_ifs <;> simp
  exact ⟨rfl, hformat, id⟩

namespace Agrees

variable {s' : Adapter w}

theorem of_quiet (hfits : s.host.drv.RingFits) (hquiet : s.accepting = false) : s.Agrees :=
  ⟨hfits, fun haccepting => (by cases hquiet.symm.trans haccepting)⟩

theorem steady (h : s.Agrees) (hfmt : s'.fmt = s.fmt) (haccepting : s'.accepting = s.accepting)
    (hsteady : Driver.Steady s.host.drv s'.host.drv) : s'.Agrees := by
  refine ⟨hsteady.fits h.fits, fun hon => ?_⟩
  obtain ⟨hcopy, haccepted, hcapture⟩ := h.format (haccepting ▸ hon)
  refine ⟨?_, ?_, ?_⟩
  · rw [negotiated, hsteady.playback, hfmt]
    exact hcopy
  · rw [hfmt]
    exact haccepted
  · rw [hsteady.capture]
    exact hcapture

theorem stop (h : s.Agrees) (a : Answers w) : (s.stop a).Agrees :=
  .of_quiet ((Host.stop_steady s.host a).fits h.fits) rfl

theorem close (h : s.Agrees) (a₁ a₂ : Answers w) : (s.close a₁ a₂).Agrees :=
  .of_quiet (Host.close_fits (h.stop a₁).fits a₂) rfl

theorem open_ (h : s.Agrees) (a₁ a₂ a₃ a₄ : Answers w) (o : OpenAnswers) (fd driverCode : Int) :
    (s.open_ a₁ a₂ a₃ a₄ o fd driverCode).1.Agrees := by
  have hopened := Host.open_fits ((h.stop a₁).close a₂ a₃).fits a₄ o fd driverCode
  unfold Adapter.open_
  dsimp only
  split
  · exact h
  split
  · exact .of_quiet hopened rfl
  · exact .of_quiet hopened rfl

/-- A start that goes through takes the copy of what it has negotiated; any other has stopped the adapter. -/
theorem start (h : s.Agrees) (a₁ a₂ a₃ : Answers w) (sampleRate bitsPerSample bytesPerSample channels outputPair : Int) :
    (s.start a₁ a₂ a₃ sampleRate bitsPerSample bytesPerSample channels outputPair).1.Agrees := by
  obtain ⟨hfits, hneg⟩ := Host.startDuplex_negotiated (h.stop a₁).fits a₂
    ⟨sampleRate, bitsPerSample, channels, bytesPerSample⟩
  unfold Adapter.start
  dsimp only
  generalize (s.stop a₁).host.startDuplex a₂ ⟨sampleRate, bitsPerSample, channels, bytesPerSample⟩ = r at *
  split
  · exact h
  rename_i hrequest
  split
  · exact .of_quiet hfits rfl
  rename_i hstarted
  split
  · exact .of_quiet ((Host.stop_steady r.1 a₃).fits hfits) rfl
  rename_i hformats
  replace hneg := hneg (by simpa using hstarted)
  refine ⟨hfits, fun _ => ?_⟩
  obtain ⟨-, hrequest⟩ := not_or.1 hrequest
  have haccepted : DirectUsbOutput.start sampleRate bitsPerSample bytesPerSample channels outputPair r.1.drv.pb.format
      r.1.drv.cap.format = some ⟨bitsPerSample.toNat, bytesPerSample.toNat, r.1.drv.pb.format.channels, outputPair.toNat⟩ := by
    rw [DirectUsbOutput.start, if_neg (by simpa [DirectUsbOutput.requestRefused] using hrequest),
      if_neg (by simpa [DirectUsbOutput.formatRefused] using hformats)]
  obtain ⟨ho, -, -, hbytes, -⟩ := DirectUsbOutput.accepted_of_start haccepted
  have hbits : bitsPerSample.toNat = 16 ∨ bitsPerSample.toNat = 24 ∨ bitsPerSample.toNat = 32 := ho.bits
  have hpos : 0 < validBytes bitsPerSample.toNat := by
    rcases hbits with h | h | h <;> rw [h] <;> decide
  have hvalid : validBytes bitsPerSample.toNat ≤ bytesPerSample.toNat := ho.bytes.1
  have hsubslot : (r.1.drv.pb.format.bytesPerSample : Int) = bytesPerSample :=
    hneg.bytesPerSample (show (0 : Int) < bytesPerSample by omega)
  refine ⟨?_, ho, DirectUsbOutput.captureAccepted_of_start haccepted⟩
  simp only [negotiated, DirectUsbOutput.mk.injEq, and_true]
  exact ⟨hneg.bitsPerSample.symm, by omega⟩

section Pack

variable {α : Type} {quantise : (bits : Nat) → α → BitVec bits}

variable (quantise) in
/-- A quantum that is let in is one of the driver, filled by the encoder: the packer does not refuse a format that a start
has accepted. -/
theorem submitQuantum_eq (h : s.Agrees) {frames : Int} (hadmitted : s.turnsAway frames = false) (left right : Nat → α)
    (chargeCredit : Bool) :
    s.fmt.submitQuantum quantise s.host.drv.pb s.accepting s.admissionPolicy.toNat left right frames chargeCredit =
      s.host.drv.pb.submitQuantum true s.admissionPolicy.toNat frames (some (s.fmt.encode quantise left right frames.toNat))
        chargeCredit := by
  have haccepting : s.accepting = true := (turnsAway_iff.1 hadmitted).2.2
  obtain ⟨hcopy, haccepted, -⟩ := h.format haccepting
  have hstride : s.host.drv.pb.stride = s.fmt.deviceChannels * s.fmt.formatBytes := by
    rw [hcopy]
    rfl
  rw [DirectUsbOutput.submitQuantum_eq haccepted h.fits hstride, haccepting]

theorem submitQuantum (h : s.Agrees) (left right : Nat → α) (frames : Int) (chargeCredit : Bool) :
    let s' := (s.submitQuantum quantise left right frames chargeCredit).1
    s'.fmt = s.fmt ∧ s'.accepting = s.accepting ∧ Driver.Steady s.host.drv s'.host.drv := by
  unfold Adapter.submitQuantum
  dsimp only
  split
  · exact ⟨rfl, rfl, .refl _⟩
  · rename_i hadmitted
    rw [h.submitQuantum_eq quantise (by simpa using hadmitted)]
    exact ⟨rfl, rfl, s.host.drv.step_steady (.submitQuantum true _ frames _ chargeCredit)⟩

variable (quantise) in
/-- Whatever is not a start that succeeds stops the adapter or leaves both formats alone. -/
theorem kept (h : s.Agrees) {a : AdapterAct w α} (ha : s.startsAnew a = false) :
    ((s.step quantise a).accepting = false ∧ (s.step quantise a).host.drv.RingFits) ∨
      ((s.step quantise a).fmt = s.fmt ∧ (s.step quantise a).accepting = s.accepting ∧
        Driver.Steady s.host.drv (s.step quantise a).host.drv) := by
  cases a with
  | open_ a₁ a₂ a₃ a₄ o fd driverCode =>
    rcases open_cases s a₁ a₂ a₃ a₄ o fd driverCode with hsame | hquiet
    · refine .inr ?_
      rw [step, hsame]
      exact ⟨rfl, rfl, .refl _⟩
    · exact .inl ⟨hquiet, (h.open_ a₁ a₂ a₃ a₄ o fd driverCode).fits⟩
  | close a₁ a₂ => exact .inl ⟨rfl, (h.close a₁ a₂).fits⟩
  | configureUserspaceBuffers c =>
    obtain ⟨hfits, hplayback, hcapture⟩ := Host.configureUserspaceBuffers_fits h.fits c
    exact .inr ⟨rfl, rfl, hplayback, hcapture, fun _ => hfits⟩
  | setUserspaceBufferConfig frames c periodMultiplier =>
    exact .inr ⟨rfl, rfl, Host.setUserspaceBufferConfig_steady s.host frames c periodMultiplier⟩
  | setAdmissionPolicy policy => exact .inr ⟨rfl, rfl, .refl _⟩
  | resetEnvelopeMetrics => exact .inr ⟨rfl, rfl, .of_ring rfl rfl rfl⟩
  | start a₁ a₂ a₃ sampleRate bitsPerSample bytesPerSample channels outputPair =>
    rcases start_cases s a₁ a₂ a₃ sampleRate bitsPerSample bytesPerSample channels outputPair ha with hsame | hquiet
    · refine .inr ?_
      rw [step, hsame]
      exact ⟨rfl, rfl, .refl _⟩
    · exact .inl ⟨hquiet, (h.start a₁ a₂ a₃ sampleRate bitsPerSample bytesPerSample channels outputPair).fits⟩
  | startPlayback a => exact .inr ⟨rfl, rfl, Host.startPlayback_steady s.host a⟩
  | requestStop => exact .inl ⟨rfl, h.fits⟩
  | stop a => exact .inl ⟨rfl, (h.stop a).fits⟩
  | submitQuantum left right frames chargeCredit => exact .inr (h.submitQuantum left right frames chargeCredit)
  | readInputChannels limit destinationChannels frames =>
    exact .inr ⟨rfl, rfl, readInputChannels_steady s limit destinationChannels frames⟩
  | driver a => exact .inr ⟨rfl, rfl, s.host.drv.step_steady a⟩

theorem step (h : s.Agrees) (a : AdapterAct w α) : (s.step quantise a).Agrees := by
  cases hanew : s.startsAnew a with
  | true =>
    cases a with
    | start a₁ a₂ a₃ sampleRate bitsPerSample bytesPerSample channels outputPair =>
      exact h.start a₁ a₂ a₃ sampleRate bitsPerSample bytesPerSample channels outputPair
    | _ => cases hanew
  | false =>
    rcases h.kept quantise hanew with ⟨hquiet, hfits⟩ | ⟨hfmt, haccepting, hsteady⟩
    · exact .of_quiet hfits hquiet
    · exact h.steady hfmt haccepting hsteady

variable (quantise) in
theorem run (z : RingSize w) (as : List (AdapterAct w α)) : (Runs.run (Adapter.step quantise) (constructed z) as).Agrees := by
  have hinit : (constructed z).Agrees := .of_quiet (Host.emptied_fits rfl) rfl
  exact run_invariant (I := Agrees) (fun _ a h => h.step a) hinit as

end Pack

end Agrees

section Pack

variable {α : Type} (quantise : (bits : Nat) → α → BitVec bits)

/-- After every sequence of the adapter's calls, whatever the driver does between them and however they end: while quanta
are accepted the copy of the format is the one that the driver has negotiated, and a quantum puts onto the ring either
nothing or its frames in the layout of that format. -/
theorem quantum_in_negotiated_format (z : RingSize w) (as : List (AdapterAct w α)) (left right : Nat → α) (frames : Int)
    (chargeCredit : Bool) :
    let s := run (step quantise) (constructed z) as
    let r := s.submitQuantum quantise left right frames chargeCredit
    (s.accepting = true → s.fmt = s.negotiated ∧ s.negotiated.Accepted ∧
      DirectUsbOutput.CaptureAccepted s.host.drv.cap.format) ∧
    r.1.host.drv.pb.ring.contents = s.host.drv.pb.ring.contents ++
      if r.2 then s.negotiated.layout quantise left right frames.toNat else [] := by
  intro s r
  have h : s.Agrees := Agrees.run quantise z as
  constructor
  · intro haccepting
    obtain ⟨hcopy, haccepted, hcapture⟩ := h.format haccepting
    exact ⟨hcopy, hcopy ▸ haccepted, hcapture⟩
  by_cases hadmitted : s.turnsAway frames = true
  · have hr : r = (s, false) := if_pos hadmitted
    rw [hr]
    exact (List.append_nil _).symm
  replace hadmitted : s.turnsAway frames = false := by simpa using hadmitted
  obtain ⟨-, -, haccepting⟩ := turnsAway_iff.1 hadmitted
  obtain ⟨hcopy, haccepted, -⟩ := h.format haccepting
  have heq := h.submitQuantum_eq quantise hadmitted left right chargeCredit
  have hr : r.2 = (s.fmt.submitQuantum quantise s.host.drv.pb s.accepting s.admissionPolicy.toNat left right frames
      chargeCredit).2 ∧ r.1.host.drv.pb = (s.fmt.submitQuantum quantise s.host.drv.pb s.accepting s.admissionPolicy.toNat
        left right frames chargeCredit).1 := by
    simp only [r, Adapter.submitQuantum, hadmitted]
    exact ⟨rfl, rfl⟩
  rw [heq] at hr
  have hlen : (s.fmt.encode quantise left right frames.toNat).length = frames.toNat * s.host.drv.pb.stride := by
    rw [DirectUsbOutput.encode_length haccepted.pair]
    conv_lhs => rw [hcopy]
    rfl
  cases hsubmitted : r.2 with
  | false =>
    rw [if_neg Bool.false_ne_true, List.append_nil, hr.2]
    rcases Playback.submitQuantum_stock (p := s.host.drv.pb) true s.admissionPolicy.toNat frames
      (some (s.fmt.encode quantise left right frames.toNat)) chargeCredit with ⟨-, hstock⟩ | ⟨hyes, -⟩
    · exact congrArg (fun e => Ring.contents e.1) hstock
    · cases (hsubmitted.symm.trans hr.1).trans hyes
  | true =>
    obtain ⟨-, -, hfit, hring⟩ := Playback.submitQuantum_contents h.fits hlen (Prod.ext rfl (hr.1.symm.trans hsubmitted))
    rw [if_pos rfl, hr.2, hring, Ring.contents_push hfit, DirectUsbOutput.encode_eq_layout haccepted, ← hcopy]

/-- A stereo device: the start goes through, and the first quantum is four bytes a frame. -/
example :
    let quantise := fun bits (x : Int) => BitVec.ofInt bits x
    let s := run (step quantise) (constructed defaultRing)
      [.open_ {} {} {} {} {} 5 0, .start {} Host.duplexStereo {} 48000 16 2 2 0]
    s.accepting = true ∧ (s.submitQuantum quantise (fun i => i + 1) (fun i => -1 - i) 2 false).1.host.drv.pb.ring.contents =
      [1, 0, 0xFF, 0xFF, 2, 0, 0xFE, 0xFF] := by
  decide +kernel

end Pack

end Adapter

/-! ### What a drop and a margin mean -/

/-- A block that fills its region is refused only for want of room, or because the credit policy charges for it and the
credit is below the floor. -/
theorem Playback.submitQuantum_admits {p : Playback w} {frames : Int} (hpos : 0 < frames) (hmax : frames ≤ kMaxFramesPerWrite)
    (policy : Nat) (bytes : List UInt8) (chargeCredit : Bool) :
    (p.submitQuantum true policy frames (some bytes) chargeCredit).2 = false ↔ p.writableFrames < frames ∨
      (frames ≤ p.writableFrames ∧ chargeCredit = true ∧ policy = 1 ∧ p.playbackStarted = true ∧
        p.playbackCredit - frames < p.creditFloor) := by
  have hguard : ¬(frames ≤ 0 ∨ frames > kMaxFramesPerWrite ∨ (!true) = true) := by
    rintro (h | h | h)
    · omega
    · omega
    · cases h
  unfold submitQuantum
  rw [if_neg hguard]
  by_cases hroom : frames ≤ p.writableFrames
  · rw [if_pos hroom]
    dsimp only
    rw [if_pos (preparePlaybackWrite_whole hpos hroom).1]
    by_cases hfree : (!chargeCredit) = true ∨ policy ≠ 1
    · rw [if_pos hfree]
      refine iff_of_false Bool.true_eq_false.mp ?_
      rintro (hshort | ⟨-, hcharge, hpolicy, -⟩)
      · omega
      · rcases hfree with hfree | hfree
        · rw [hcharge] at hfree
          cases hfree
        · exact hfree hpolicy
    · rw [if_neg hfree]
      obtain ⟨hcharge, hpolicy⟩ := not_or.1 hfree
      have hpaid := takePlaybackCredit_prepared (p := p) frames hpos
      generalize (p.preparePlaybackWrite frames).1.takePlaybackCredit frames = r at hpaid
      obtain ⟨p₂, paid⟩ := r
      replace hcharge : chargeCredit = true := by simpa using hcharge
      replace hpolicy : policy = 1 := by simpa using hpolicy
      cases paid with
      | true =>
        refine iff_of_false Bool.true_eq_false.mp ?_
        rintro (hshort | ⟨-, -, -, hstarted, hlow⟩)
        · omega
        · have := hpaid.1 rfl hstarted
          omega
      | false =>
        refine iff_of_true rfl (.inr ⟨hroom, hcharge, hpolicy, ?_⟩)
        by_contra hno
        have hpays : (p₂, false).2 = true := hpaid.2 fun hstarted => by
          by_contra hlow
          exact hno ⟨hstarted, by omega⟩
        cases hpays
  · rw [if_neg hroom]
    exact iff_of_true rfl (.inl (by omega))

/-- One quantum that `submitQuantum` has not turned away: the room beyond it, and whether there is room but the credit
policy refuses it. -/
structure Offer where
  margin : Int
  unpaid : Bool

namespace Adapter

variable {s : Adapter w}

def offer (s : Adapter w) (frames : Int) (chargeCredit : Bool) : Offer :=
  let p := s.host.drv.pb
  ⟨p.writableFrames - frames, decide (frames ≤ p.writableFrames ∧ chargeCredit = true ∧ s.admissionPolicy = 1 ∧
    p.playbackStarted = true ∧ p.playbackCredit - frames < p.creditFloor)⟩

section Pack

variable {α : Type} (quantise : (bits : Nat) → α → BitVec bits)

def offers (s : Adapter w) : AdapterAct w α → List Offer
  | .submitQuantum _ _ frames chargeCredit => if s.turnsAway frames then [] else [s.offer frames chargeCredit]
  | _ => []

/-- The drops are counted anew with a start that succeeds; the margin is measured anew with such a start and with a reset of the metrics. -/
def measuresAnew (s : Adapter w) : AdapterAct w α → Bool
  | .resetEnvelopeMetrics => true
  | a => s.startsAnew a

def meters (s : Adapter w) : Nat × Int := (s.playbackQuantumDrops, s.minAdmissionMargin)

theorem start_meters (a₁ a₂ a₃ : Answers w) (sampleRate bitsPerSample bytesPerSample channels outputPair : Int) :
    let r := s.start a₁ a₂ a₃ sampleRate bitsPerSample bytesPerSample channels outputPair
    r.1.meters = if r.2 then (0, (kIntMax : Int)) else s.meters := by
  intro r
  simp only [r, start]
  split
  · rfl
  split
  · rfl
  split <;> rfl

theorem open_meters (a₁ a₂ a₃ a₄ : Answers w) (o : OpenAnswers) (fd driverCode : Int) :
    (s.open_ a₁ a₂ a₃ a₄ o fd driverCode).1.meters = s.meters := by
  unfold open_
  dsimp only
  split
  · rfl
  split <;> rfl

/-- A quantum counts as a drop, if it has not been turned away, for one of the two reasons of its offer. -/
theorem Agrees.submitQuantum_meters (h : s.Agrees) {frames : Int} (hadmitted : s.turnsAway frames = false)
    (left right : Nat → α) (chargeCredit : Bool) :
    let o := s.offer frames chargeCredit
    (s.submitQuantum quantise left right frames chargeCredit).1.meters =
      (s.playbackQuantumDrops + if o.margin < 0 ∨ o.unpaid = true then 1 else 0, min s.minAdmissionMargin o.margin) := by
  intro o
  obtain ⟨hpos, hmax, -⟩ := turnsAway_iff.1 hadmitted
  have hadmits := Playback.submitQuantum_admits (p := s.host.drv.pb) hpos hmax s.admissionPolicy.toNat
    (s.fmt.encode quantise left right frames.toNat) chargeCredit
  have hrefused : (s.host.drv.pb.submitQuantum true s.admissionPolicy.toNat frames
      (some (s.fmt.encode quantise left right frames.toNat)) chargeCredit).2 = false ↔ o.margin < 0 ∨ o.unpaid = true := by
    have hpolicy : s.admissionPolicy.toNat = 1 ↔ s.admissionPolicy = 1 := by omega
    have hshort : s.host.drv.pb.writableFrames < frames ↔ o.margin < 0 := by
      show _ ↔ s.host.drv.pb.writableFrames - frames < 0
      omega
    rw [hadmits, hpolicy, hshort]
    exact or_congr_right decide_eq_true_iff.symm
  simp only [Adapter.submitQuantum, hadmitted, Bool.false_eq_true, if_false, meters, Prod.mk.injEq]
  refine ⟨?_, rfl⟩
  rw [h.submitQuantum_eq quantise hadmitted]
  cases hsubmitted : (s.host.drv.pb.submitQuantum true s.admissionPolicy.toNat frames
      (some (s.fmt.encode quantise left right frames.toNat)) chargeCredit).2 with
  | true =>
    rw [if_pos rfl, if_neg fun ho => by cases hsubmitted.symm.trans (hrefused.2 ho)]
    rfl
  | false => rw [if_neg Bool.false_ne_true, if_pos (hrefused.1 hsubmitted)]

theorem step_meters_of_anew {a : AdapterAct w α} (ha : s.startsAnew a = true) : (s.step quantise a).meters = (0, (kIntMax : Int)) := by
  cases a with
  | start a₁ a₂ a₃ sampleRate bitsPerSample bytesPerSample channels outputPair =>
    exact (start_meters a₁ a₂ a₃ sampleRate bitsPerSample bytesPerSample channels outputPair).trans (if_pos ha)
  | _ => cases ha

theorem startsAnew_of_measuresAnew {a : AdapterAct w α} (ha : s.measuresAnew a = false) : s.startsAnew a = false := by
  cases a with
  | resetEnvelopeMetrics => rfl
  | start => exact ha
  | _ => rfl

theorem step_margin_of_anew {a : AdapterAct w α} (ha : s.measuresAnew a = true) :
    (s.step quantise a).minAdmissionMargin = kIntMax := by
  cases a with
  | resetEnvelopeMetrics => rfl
  | start a₁ a₂ a₃ sampleRate bitsPerSample bytesPerSample channels outputPair =>
    exact congrArg Prod.snd (start_meters a₁ a₂ a₃ sampleRate bitsPerSample bytesPerSample channels outputPair |>.trans
      (if_pos ha))
  | _ => cases ha

/-- Any other action adds its offers to the two meters, if it is not a reset. -/
theorem Agrees.step_meters (h : s.Agrees) {a : AdapterAct w α} (ha : s.startsAnew a = false) :
    (s.step quantise a).playbackQuantumDrops =
        s.playbackQuantumDrops + (s.offers a).countP (fun o => o.margin < 0 ∨ o.unpaid = true) ∧
      (s.measuresAnew a = false →
        (s.step quantise a).minAdmissionMargin = ((s.offers a).map Offer.margin).foldl min s.minAdmissionMargin) := by
  have hquiet {a : AdapterAct w α} (hoffers : s.offers a = []) (hmeters : (s.step quantise a).meters = s.meters) :
      (s.step quantise a).playbackQuantumDrops =
          s.playbackQuantumDrops + (s.offers a).countP (fun o => o.margin < 0 ∨ o.unpaid = true) ∧
        (s.measuresAnew a = false →
          (s.step quantise a).minAdmissionMargin = ((s.offers a).map Offer.margin).foldl min s.minAdmissionMargin) := by
    rw [hoffers]
    exact ⟨congrArg Prod.fst hmeters, fun _ => congrArg Prod.snd hmeters⟩
  cases a with
  | start a₁ a₂ a₃ sampleRate bitsPerSample bytesPerSample channels outputPair =>
    refine hquiet rfl ((start_meters a₁ a₂ a₃ sampleRate bitsPerSample bytesPerSample channels outputPair).trans (if_neg ?_))
    exact fun hstarted => by cases ha.symm.trans hstarted
  | open_ a₁ a₂ a₃ a₄ o fd driverCode => exact hquiet rfl (open_meters a₁ a₂ a₃ a₄ o fd driverCode)
  | resetEnvelopeMetrics => exact ⟨rfl, fun hkept => by cases hkept⟩
  | submitQuantum left right frames chargeCredit =>
    by_cases hadmitted : s.turnsAway frames = true
    · refine hquiet (if_pos hadmitted) ?_
      show (s.submitQuantum quantise left right frames chargeCredit).1.meters = s.meters
      rw [Adapter.submitQuantum, if_pos hadmitted]
    · replace hadmitted : s.turnsAway frames = false := by simpa using hadmitted
      have hmeters := h.submitQuantum_meters quantise hadmitted left right chargeCredit
      have hoffers : s.offers (.submitQuantum left right frames chargeCredit) = [s.offer frames chargeCredit] :=
        if_neg (by rw [hadmitted]; exact Bool.false_ne_true)
      rw [hoffers]
      refine ⟨(congrArg Prod.fst hmeters).trans ?_, fun _ => congrArg Prod.snd hmeters⟩
      rw [List.countP_singleton]
      simp only [decide_eq_true_eq]
  | _ => exact hquiet rfl rfl

/-- Over every history: the drops are the quanta since the last start that has succeeded, of those not turned away, that
met too little room or were refused their credit, and nothing else is dropped. The margin is the least room that any of
them left since then or since the last reset; read back, it is negative if and only if one of them met too little room. -/
theorem drops_exact (z : RingSize w) (as : List (AdapterAct w α)) :
    let s := run (step quantise) (constructed z) as
    let dropping := logSince (step quantise) startsAnew offers [] (constructed z) as
    let measured := logSince (step quantise) measuresAnew offers [] (constructed z) as
    s.playbackQuantumDrops = dropping.countP (fun o => o.margin < 0 ∨ o.unpaid = true) ∧
    IsLeast (insert (kIntMax : Int) {m | m ∈ measured.map Offer.margin}) s.minAdmissionMargin ∧
    (s.minAdmissionMarginFrames < 0 ↔ ∃ o ∈ measured, o.margin < 0) := by
  intro s dropping measured
  have hinit : (constructed z).Agrees := Agrees.run quantise z []
  have hdrops := (@logSince_rule _ _ (step quantise) _ startsAnew offers
    (fun s l => s.Agrees ∧ s.playbackQuantumDrops = l.countP fun o => o.margin < 0 ∨ o.unpaid = true)
    (fun s _ a ha h => ⟨h.1.step a, congrArg Prod.fst (step_meters_of_anew quantise ha)⟩)
    (fun s l a ha h => ⟨h.1.step a, by rw [(h.1.step_meters quantise ha).1, h.2, List.countP_append]⟩)
    _ [] ⟨hinit, rfl⟩ as).2
  have hmargin := (@logSince_rule _ _ (step quantise) _ measuresAnew offers
    (fun s l => s.Agrees ∧ s.minAdmissionMargin = (l.map Offer.margin).foldl min (kIntMax : Int))
    (fun s _ a ha h => ⟨h.1.step a, step_margin_of_anew quantise ha⟩)
    (fun s l a ha h => ⟨h.1.step a, (by
      rw [(h.1.step_meters quantise (startsAnew_of_measuresAnew ha)).2 ha, h.2, List.map_append, List.foldl_append])⟩)
    _ [] ⟨hinit, rfl⟩ as).2
  have hleast : IsLeast (insert (kIntMax : Int) {m | m ∈ measured.map Offer.margin}) s.minAdmissionMargin :=
    hmargin ▸ Meters.isLeast_foldl_min (kIntMax : Int) (measured.map Offer.margin)
  refine ⟨hdrops, hleast, ?_⟩
  have hread : s.minAdmissionMarginFrames < 0 ↔ s.minAdmissionMargin < 0 := by
    unfold minAdmissionMarginFrames
    split
    · rename_i hnone
      rw [hnone]
      decide
    · rfl
  rw [hread]
  obtain ⟨hmem, hlow⟩ := hleast
  constructor
  · intro hneg
    rcases hmem with hnone | hmem
    · rw [hnone] at hneg
      exact absurd hneg (by decide)
    · obtain ⟨o, ho, he⟩ := List.mem_map.1 hmem
      exact ⟨o, ho, he.trans_lt hneg⟩
  · rintro ⟨o, ho, hneg⟩
    exact (hlow (.inr (List.mem_map_of_mem ho))).trans_lt hneg

end Pack

end Adapter

end UacDriver

import UacDriver.StartupPrime
import UacDriver.Descriptors

/-!
# The control thread: open, start, stop

`Host` is the driver with what the control thread keeps about the device: the handle, the claimed interfaces, the
allocated capture transfers and the event thread. `Answers` is what libusb, the device and the other threads do during
one call: each libusb result, and for each place at which the call waits or other threads can run, the steps they take
there, each to its end. A release always succeeds. Error texts, the rate inventory and the log are left out.

`start` is here as `startDuplex` calls it. That a client calls it directly, to start playback alone or on the Line6 profile,
is left out.
-/

namespace UacDriver

open Runs

inductive StartError where
  | ok
  | noDevice
  | noMatchingAlt
  | claimInterfaceFailed
  | setAltFailed
  | setSampleRateFailed
  | isoPumpAllocFailed
  | isoPumpSubmitFailed
  | transportStoppedUnexpectedly
  | unknown
  deriving DecidableEq

structure Host (w : Nat) extends Startup w where
  /-- `device_` is not null. -/
  device : Bool := false
  fd : Int := -1
  driverCode : Int := 0
  line6Profile : Bool := false
  interfaceClaimed : Bool := false
  controlInterfaceClaimed : Bool := false
  claimedControlIface : Nat := 0xFF
  captureInterfaceClaimed : Bool := false
  claimedCaptureIface : Nat := 0xFF
  /-- `captureTransfers_.size()`. -/
  captureCount : Nat := 0
  /-- `eventThread_.joinable()`. -/
  eventThread : Bool := false
  lifecycleFailures : Nat := 0
  lastError : StartError := .ok
  /-- libusb's side: the interfaces claimed on the handle. -/
  claims : Finset Nat := ∅

/-- Where a call waits, or runs next to the event thread. -/
inductive Place where
  | reconfigureOut
  | reconfigureCapture
  | captureSubmit (j : Nat)
  | captureFailed
  | priming
  | stopOut
  | stopCapture

structure Answers (w : Nat) where
  /-- The configuration descriptor and the speed of the device. -/
  config : Option ConfigDescriptor := none
  isHs : Bool := true
  /-- The capture format found for a playback format, whatever walk over the descriptors finds it. -/
  selectCaptureAltSetting : StreamFormat → Option StreamFormat := fun _ => none
  claimInterface : Nat → Bool := fun _ => true
  setInterfaceAltSetting : Nat → Nat → Bool := fun _ _ => true
  setSampleRate : Bool := true
  line6VendorSetup : Bool := true
  /-- `libusb_get_max_iso_packet_size` of the capture endpoint and of the playback endpoint. -/
  mps : Int := 0
  maxPacket : Int := 0
  captureAlloc : Nat → Bool := fun _ => true
  /-- All transfers of the output are allocated; if not, `allocated` OUT transfers are. -/
  alloc : Bool := true
  allocated : Nat := 0
  submit : Xfer → Bool := fun _ => true
  others : Place → Driver w → List DriverAct := fun _ _ => []

/-- What `open` finds: the context, the wrapped handle and the identity in the device descriptor. -/
structure OpenAnswers where
  context : Bool := true
  handle : Bool := true
  identity : Option (Nat × Nat) := none

/-! ### The capture pump and its submit loop -/

namespace Driver

variable {w : Nat}

/-- The submit loop of `startCapturePump`, with other threads running before each submit. -/
def submitCaptures (lengths : List Nat) (a : Answers w) : List Nat → Driver w → Driver w × Bool
  | [], d => (d, true)
  | j :: rest, d =>
    let d' := run step d (a.others (.captureSubmit j) d)
    if a.submit (.capture j) then
      submitCaptures lengths a rest
        (({ d' with captureInflight := d'.captureInflight + 1 } : Driver w).submit (.capture j) true lengths)
    else
      ({ d'.submit (.capture j) false lengths with
          cap := { d'.cap with captureActive := false }, stopRequested := true
          stats := { d'.stats with captureTransferErrors := d'.stats.captureTransferErrors + 1 } }, false)

/-- The stores of `startCapturePump`. -/
def withCapturePackets (d : Driver w) (capturePacketsPerTransfer : Nat) : Driver w :=
  { d with geometry := { d.geometry with capturePacketsPerTransfer } }

def withCaptureFrames (d : Driver w) (captureMaxFramesPerPacket : Nat) : Driver w :=
  { d with geometry := { d.geometry with captureMaxFramesPerPacket } }

def activateCapture (d : Driver w) : Driver w := { d with cap := { d.cap with captureActive := true } }

/-- The session reset of `line6StartDuplex`. The counters and the credit of the playback side are not among it. -/
def line6Reset (d : Driver w) (playback capture : StreamFormat) : Driver w :=
  { d with
    pb := { d.pb with format := playback, ring := { d.pb.ring with head := 0, tail := 0 }, playbackStarted := false }
    cap := { d.cap with format := capture, ring := { d.cap.ring with head := 0, tail := 0 } }
    fifo := { d.fifo with implicitRead := 0, implicitWrite := 0 }
    pending := [], inflight := 0, captureInflight := 0
    stopRequested := false, streaming := false, transportFailed := false }

/-- The reset at the end of `stop`. -/
def stopReset (d : Driver w) : Driver w :=
  { d with
    cap := { d.cap with
      ring := { d.cap.ring with head := 0, tail := 0 }, captureSequence := 0, captureUnderruns := 0
      capturePacketDrops := 0 }
    fifo := { d.fifo with metadataFifoOverruns := 0 } }

/-- The reset of the reconfigure branch of `start`. -/
def reconfigureReset (d : Driver w) : Driver w :=
  { d with
    cap := { d.cap with
      ring := { d.cap.ring with head := 0, tail := 0 }, captureLive := false, startupCaptureDiscardFrames := 0
      captureSequence := 0, captureOverruns := 0, captureUnderruns := 0, capturePacketDrops := 0 }
    fifo := { d.fifo with metadataFifoOverruns := 0 }
    streaming := false }

end Driver

namespace Host

variable {w : Nat} (h : Host w)

/-- `err` and a return of false. -/
def err (code : StartError) : Host w × Bool := ({ h with lastError := code }, false)

def withDriver (drv : Driver w) : Host w := { h with drv }

/-! ### Stopping -/

def stopIsoPump (served : List DriverAct) : Host w × Bool :=
  let (drv, stopped) := h.drv.stopIsoPump served
  if stopped then ({ h with drv, eventThread := false }, true)
  else ({ h with drv, lifecycleFailures := h.lifecycleFailures + 1 }, false)

def stopCapturePump (served : List DriverAct) : Host w × Bool :=
  let (drv, stopped) := h.drv.stopCapturePump served
  if stopped then ({ h with drv, captureCount := 0 }, true)
  else ({ h with drv, lifecycleFailures := h.lifecycleFailures + 1 }, false)

def releaseStreaming : Host w :=
  if h.device ∧ h.interfaceClaimed then
    { h with interfaceClaimed := false, claims := h.claims.erase h.drv.pb.format.interfaceNumber }
  else h

def releaseControl : Host w :=
  if h.device ∧ h.controlInterfaceClaimed then
    { h with controlInterfaceClaimed := false, claims := h.claims.erase h.claimedControlIface }
  else h

def releaseCapture : Host w :=
  if h.device ∧ h.captureInterfaceClaimed then
    { h with
      captureInterfaceClaimed := false, claims := h.claims.erase h.claimedCaptureIface, claimedCaptureIface := 0xFF }
  else h

/-- Nothing that `stop` would have to end or release. -/
def nothingToStop : Bool :=
  h.drv.outCount == 0 && h.captureCount == 0 && !h.interfaceClaimed && !h.controlInterfaceClaimed &&
    !h.captureInterfaceClaimed

/-- Both pumps, one after the other, and whether both have stopped. -/
def stopPumps (a : Answers w) (out capture : Place) : Host w × Bool :=
  let (h₁, playbackStopped) := h.stopIsoPump (a.others out h.drv)
  let (h₂, captureStopped) := h₁.stopCapturePump (a.others capture h₁.drv)
  (h₂, playbackStopped && captureStopped)

def stop (a : Answers w) : Host w :=
  let h₁ := h.withDriver h.drv.requestStop
  if h.nothingToStop then h₁
  else
    let (h₂, stopped) := h₁.stopPumps a .stopOut .stopCapture
    if stopped then
      let released := h₂.releaseStreaming.releaseControl.releaseCapture
      released.withDriver released.drv.stopReset
    else h₂

/-! ### Opening and closing -/

/-- Transfers of an earlier session are still live. -/
def transfersLive : Bool :=
  h.drv.outCount != 0 || h.drv.feedbackCount != 0 || h.captureCount != 0 || h.drv.inflight != 0 ||
    h.drv.captureInflight != 0

/-- `libusb_close`, which gives up what is claimed on the handle. -/
def closeDevice : Host w := { h with device := false, fd := -1, claims := ∅ }

/-- The identity check of the Line6 profile. -/
def isLine6 : Option (Nat × Nat) → Bool
  | some (idVendor, idProduct) => idVendor == 0x0e41 && (idProduct == 0x4141 || idProduct == 0x4150 || idProduct == 0x5555)
  | none => false

def open_ (a : Answers w) (o : OpenAnswers) (fileDescriptor driverCode : Int) : Host w × Bool :=
  if !o.context then (h, false)
  else
    let h₁ := h.stop a
    if h₁.transfersLive then ({ h₁ with lifecycleFailures := h₁.lifecycleFailures + 1 }, false)
    else if h₁.device ∧ h₁.fd = fileDescriptor ∧ h₁.driverCode = driverCode then (h₁, true)
    else
      let h₂ := if h₁.device then h₁.closeDevice else h₁
      if !o.handle then (h₂, false)
      else if driverCode ≠ 0 ∧ driverCode ≠ 1 then (h₂.closeDevice, false)
      else
        let h₃ := { h₂ with device := true, driverCode, line6Profile := decide (driverCode = 1), fd := fileDescriptor }
        if h₃.line6Profile ∧ !isLine6 o.identity then (h₃.closeDevice, false)
        else
          (h₃.withDriver { h₃.drv with geometry := { h₃.drv.geometry with transferCount := kDefaultNumTransfers } }, true)

def close (a : Answers w) : Host w :=
  let h₁ := h.stop a
  if h₁.transfersLive then h₁
  else if h₁.device then
    h₁.closeDevice.withDriver { h₁.drv with pb := { h₁.drv.pb with format := {} } }
  else h₁

/-- `configureUserspaceBuffers`: a refused request changes nothing. -/
def configureUserspaceBuffers (c : UserspaceBufferConfig) : Host w × Bool :=
  match h.drv.configureUserspaceBuffers c with
  | some drv => (h.withDriver drv, true)
  | none => (h, false)

def setUserspaceBufferConfig (frames : Int) (c : UserspaceBufferConfig) (periodMultiplier : Int) : Host w :=
  { h with toStartup := h.toStartup.setUserspaceBufferConfig frames c periodMultiplier }

/-! ### Starting -/

/-- The store of `captureActive_`. -/
def deactivateCapture : Host w := h.withDriver { h.drv with cap := { h.drv.cap with captureActive := false } }

/-- The release of the capture interface in the reconfigure branch, where the device is open. -/
def dropCapture : Host w :=
  if h.captureInterfaceClaimed then
    { h with
      captureInterfaceClaimed := false, claims := h.claims.erase h.claimedCaptureIface, claimedCaptureIface := 0xFF }
  else h

/-- The reconfigure branch of `start`: what is left of an earlier session is stopped, and capture released. -/
def reconfigure (a : Answers w) : Host w × Bool :=
  if h.drv.streaming ∨ h.transfersLive ∨ h.eventThread ∨ h.captureInterfaceClaimed then
    let (h₁, stopped) := h.deactivateCapture.stopPumps a .reconfigureOut .reconfigureCapture
    if !stopped then h₁.err .isoPumpSubmitFailed
    else (h₁.dropCapture.withDriver h₁.drv.reconfigureReset, true)
  else (h, true)

/-- What a successful claim of the streaming interface stores. -/
def holdStreaming (interfaceNumber : Nat) : Host w :=
  { h with interfaceClaimed := true, claims := insert interfaceNumber h.claims }

/-- The claim of the streaming interface; it is kept when it is the one already held. -/
def claimStreaming (a : Answers w) (fmt : StreamFormat) : Host w × Bool :=
  if !h.interfaceClaimed ∨ h.drv.pb.format.interfaceNumber ≠ fmt.interfaceNumber then
    let h₁ := if h.interfaceClaimed then
        { h with interfaceClaimed := false, claims := h.claims.erase h.drv.pb.format.interfaceNumber }
      else h
    if a.claimInterface fmt.interfaceNumber then (h₁.holdStreaming fmt.interfaceNumber, true)
    else h₁.err .claimInterfaceFailed
  else (h, true)

/-- The claim of the AudioControl interface; a start goes on without it. -/
def claimControl (a : Answers w) (fmt : StreamFormat) : Host w :=
  if fmt.controlInterfaceNum ≠ 0xFF ∧
      (!h.controlInterfaceClaimed ∨ h.claimedControlIface ≠ fmt.controlInterfaceNum) then
    let h₁ := if h.controlInterfaceClaimed then
        { h with controlInterfaceClaimed := false, claims := h.claims.erase h.claimedControlIface }
      else h
    if a.claimInterface fmt.controlInterfaceNum then
      { h₁ with
        controlInterfaceClaimed := true, claimedControlIface := fmt.controlInterfaceNum
        claims := insert fmt.controlInterfaceNum h₁.claims }
    else h₁
  else h

/-- The second half of `start`: the claims, the alternate setting, the clock and the session reset. -/
def startFormat (a : Answers w) (fmt : StreamFormat) : Host w × Bool :=
  let (h₁, claimed) := h.claimStreaming a fmt
  if !claimed then (h₁, false)
  else
    let h₂ := h₁.claimControl a fmt
    let h₃ := h₂.withDriver { h₂.drv with pb := { h₂.drv.pb with format := fmt } }
    if !a.setInterfaceAltSetting fmt.interfaceNumber fmt.altSetting then h₃.err .setAltFailed
    else if !a.setSampleRate then h₃.err .setSampleRateFailed
    else (h₃.withDriver (h₃.drv.start fmt), true)

/-- `start` on a generic device, with the output deferred: the call that `startDuplex` makes. -/
def start (a : Answers w) (req : StreamRequest) : Host w × Bool :=
  let h := { h with lastError := .ok }
  if !h.device then h.err .noDevice
  else if !h.drv.captureWake.valid ∨ !h.drv.playbackWake.valid then h.err .isoPumpAllocFailed
  else
    let (h₁, reconfigured) := h.reconfigure a
    if !reconfigured then (h₁, false)
    else
      match selectAltSetting a.config a.isHs req with
      | .error _ => h₁.err .noMatchingAlt
      | .ok fmt => h₁.startFormat a fmt

/-- `startCapturePump` behind its checks: the allocations, then the submits. -/
def allocateCaptures (packets : Nat) (a : Answers w) : Host w × Bool :=
  let count := h.drv.geometry.transferCount
  let allocated := ((List.range count).takeWhile a.captureAlloc).length
  let h₁ := { h with captureCount := allocated }
  if allocated < count then (h₁.stopCapturePump (a.others .captureFailed h₁.drv)).1.err .isoPumpAllocFailed
  else
    let (drv, submitted) := Driver.submitCaptures (List.replicate packets a.mps.toNat) a (List.range count)
      h₁.drv.activateCapture
    let h₂ := h₁.withDriver drv
    if submitted then (h₂, true)
    else (h₂.stopCapturePump (a.others .captureFailed h₂.drv)).1.err .isoPumpSubmitFailed

def startCapturePump (a : Answers w) : Host w × Bool :=
  let f := h.drv.cap.format
  let capturePacketsPerSecond := packetsPerSecondForInterval f.isHighSpeed f.bInterval
  let packets := h.drv.userspaceBufferConfig.packetsPerTransferAt capturePacketsPerSecond
  let captureNominalMax := (f.sampleRateHz + capturePacketsPerSecond - 1) / capturePacketsPerSecond
  let capturePhysicalMax := a.mps.toNat / h.drv.cap.stride
  if a.mps ≤ 0 ∨ h.drv.cap.stride = 0 then h.err .isoPumpAllocFailed
  else
    let h₁ := h.withDriver (h.drv.withCapturePackets packets)
    if capturePhysicalMax < captureNominalMax then h₁.err .isoPumpAllocFailed
    else
      allocateCaptures (h₁.withDriver (h₁.drv.withCaptureFrames (min capturePhysicalMax (captureNominalMax + 1)))) packets a

/-- The stores behind the claim of the capture interface. -/
def claimCapture (capture : StreamFormat) : Host w :=
  { h with
    captureInterfaceClaimed := true, claimedCaptureIface := capture.interfaceNumber
    claims := insert capture.interfaceNumber h.claims
    drv := { h.drv with cap := { h.drv.cap with format := capture } } }

/-- The capture reset of `startDuplex`. -/
def resetCapture (capture : StreamFormat) : Host w :=
  { h with drv := h.drv.resetCapture capture, lifecycleFailures := 0 }

/-- The capture half of `startDuplex`. -/
def startCapture (a : Answers w) : Host w × Bool :=
  match a.selectCaptureAltSetting h.drv.pb.format with
  | none => h.err .noMatchingAlt
  | some capture =>
    if capture.interfaceNumber = h.drv.pb.format.interfaceNumber then h.err .claimInterfaceFailed
    else if !a.claimInterface capture.interfaceNumber then h.err .claimInterfaceFailed
    else
      let h₁ := h.claimCapture capture
      if !a.setInterfaceAltSetting capture.interfaceNumber capture.altSetting then h₁.err .setAltFailed
      else (h₁.resetCapture capture).startCapturePump a

/-- The wait for the layout of the initial packets, registered on the capture channel; the event thread runs. -/
def primeLayout (a : Answers w) : Host w × Bool :=
  let f := h.drv.pb.format
  let startupPacketsPerTransfer := packetsPerTransferForRate (packetsPerSecondForInterval f.isHighSpeed f.bInterval)
  let required := h.drv.geometry.transferCount * startupPacketsPerTransfer
  let waiting := h.drv.step .registerCapture
  let h₁ := { h with eventThread := true, drv := (run Driver.step waiting (a.others .priming waiting)).step .unregisterCapture }
  if h₁.drv.fifo.implicitWrite - h₁.drv.fifo.implicitRead < required then h₁.err .isoPumpSubmitFailed
  else (h₁, true)

/-- `startIsoPump(false)`. Nothing of the output is in flight here, so a failure frees what was allocated at once. -/
def startIsoPump (a : Answers w) : Host w × Bool :=
  match h.drv.startIsoPump a.maxPacket a.alloc with
  | some drv => ({ h with drv, eventThread := true, microframesPerSec := h.drv.pb.format.microframesPerSec }, true)
  | none =>
    ({ h with
        drv := h.drv.abandonIsoPump a.maxPacket a.alloc a.allocated
        eventThread := h.eventThread && h.drv.pumpRefused a.maxPacket
        microframesPerSec := h.drv.pb.format.microframesPerSec
        lastError :=
          if h.drv.pumpRefused a.maxPacket ∨ !a.alloc ∧ (a.allocated < h.drv.geometry.transferCount ∨
              (h.drv.startIsoPump a.maxPacket true).isSome) then .isoPumpAllocFailed
          else .isoPumpSubmitFailed }, false)

/-- The end of a start that has not failed. -/
def streamingOn : Host w × Bool := (h.withDriver { h.drv with streaming := true }, true)

/-- The lambda `fail` of `line6StartDuplex`. -/
def line6Fail (a : Answers w) (code : StartError) : Host w × Bool :=
  let h₁ := { h.deactivateCapture with lastError := code }
  let h₂ := (h₁.stopPumps a .stopOut .stopCapture).1.releaseStreaming
  (h₂.withDriver { h₂.drv with streaming := false }, false)

/-- `line6StartDuplex` behind the claim of the interface. -/
def line6Pumps (a : Answers w) (playback capture : StreamFormat) : Host w × Bool :=
  let h₁ := h.withDriver (h.drv.line6Reset playback capture)
  if !a.setInterfaceAltSetting playback.interfaceNumber 2 then h₁.line6Fail a .setAltFailed
  else if !a.line6VendorSetup then h₁.line6Fail a .setSampleRateFailed
  else
    let (h₂, captureStarted) := startCapturePump { h₁ with eventThread := true } a
    if !captureStarted then h₂.line6Fail a .isoPumpAllocFailed
    else
      let (h₃, primed) := h₂.primeLayout a
      if !primed then h₃.line6Fail a .isoPumpSubmitFailed
      else
        let (h₄, prepared) := h₃.startIsoPump a
        if !prepared then h₄.line6Fail a .isoPumpSubmitFailed else h₄.streamingOn

def line6StartDuplex (a : Answers w) : Host w × Bool :=
  if h.drv.streaming ∨ h.drv.cap.captureActive ∨ h.drv.outCount ≠ 0 ∨ h.captureCount ≠ 0 ∨ h.eventThread ∨
      h.drv.inflight ≠ 0 ∨ h.drv.captureInflight ≠ 0 then h.err .isoPumpSubmitFailed
  else
    match if h.device then line6SelectFormat a.config a.isHs else none with
    | none => h.line6Fail a .noMatchingAlt
    | some (playback, capture) =>
      if h.interfaceClaimed then h.line6Pumps a playback capture
      else if !a.claimInterface playback.interfaceNumber then h.line6Fail a .claimInterfaceFailed
      else (h.holdStreaming playback.interfaceNumber).line6Pumps a playback capture

/-- The request that the Line6 profile accepts. -/
def line6Request (req : StreamRequest) : Bool :=
  decide (req.sampleRateHz = 44100 ∧ req.bitsPerSample = 16 ∧ req.channels = 2 ∧
    (req.bytesPerSample = 0 ∨ req.bytesPerSample = 2))

/-- The generic `startDuplex` behind `start`: the capture half, its layout for an implicit-feedback sink, the output
half. Any failure stops everything. -/
def startPumps (a : Answers w) : Host w × Bool :=
  let (h₁, captureStarted) := h.startCapture a
  if !captureStarted then (h₁.stop a, false)
  else
    let (h₂, primed) := if h₁.drv.implicitMode then h₁.primeLayout a else (h₁, true)
    if !primed then (h₂.stop a, false)
    else
      let (h₃, prepared) := h₂.startIsoPump a
      if !prepared then (h₃.stop a, false) else h₃.streamingOn

def startDuplex (a : Answers w) (req : StreamRequest) : Host w × Bool :=
  if h.line6Profile then
    if line6Request req then h.line6StartDuplex a else h.err .noMatchingAlt
  else
    let (h₁, prepared) := h.start a req
    if !prepared then (h₁, false) else h₁.startPumps a

end Host

end UacDriver

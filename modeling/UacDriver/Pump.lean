import UacDriver.Driver

/-!
# Starting a duplex session

What `startDuplex` and `startPlayback` do to the driver on a generic device: the session reset of `start`, the
capture pump, the OUT descriptors of `startIsoPump(false)`, and the initial submission. The endpoint sizes that
libusb reports, its allocations and its answers to the submits are arguments. A step that fails returns
nothing; the teardown that follows a failure is not part of these functions.
-/

namespace UacDriver

def StreamFormat.packetIntervalUframes (f : StreamFormat) : Nat :=
  if f.isHighSpeed then 2 ^ min 15 (f.bInterval - 1) else max 1 f.bInterval

/-- `microframesPerSec_`: packets a second. -/
def StreamFormat.microframesPerSec (f : StreamFormat) : Nat :=
  max 1 ((if f.isHighSpeed then 8000 else 1000) / f.packetIntervalUframes)

def UserspaceBufferConfig.packetsPerTransferAt (c : UserspaceBufferConfig) (packetsPerSecond : Nat) : Nat :=
  if c.packetsPerTransfer ≠ 0 then c.packetsPerTransfer.toNat else packetsPerTransferForRate packetsPerSecond

namespace MetaFifo

/-- The priming loop for one packet with `n` entries left: entries of no frames are consumed and skipped. -/
def primePacket (maxFrames : Nat) : Nat → MetaFifo → Option (Nat × MetaFifo)
  | 0, _ => none
  | n + 1, f =>
    let frames := min (f.entry f.implicitRead) maxFrames
    if frames = 0 then primePacket maxFrames n (f.take 1) else some (frames, f.take 1)

/-- The initial packets in order; nothing once the FIFO is exhausted. -/
def primePackets (maxFrames : Nat) : Nat → MetaFifo → Option (List Nat × MetaFifo)
  | 0, f => some ([], f)
  | n + 1, f =>
    (primePacket maxFrames (f.implicitWrite - f.implicitRead) f).bind fun (frames, f') =>
      (primePackets maxFrames n f').map fun (plan, f'') => (frames :: plan, f'')

end MetaFifo

/-- An OUT transfer as `startIsoPump` allocates it, sized by its share of the plan. -/
def Transfer.planned (plan : List Nat) (packets stride maxBytesPerPacket t : Nat) : Transfer :=
  { bufferBytes := maxBytesPerPacket * packets
    packets := ((plan.drop (t * packets)).take packets).map fun frames => { length := frames * stride } }

/-- The fill loop of `submitIsoPump` over one transfer: packet `p` is drained to the sum of the planned lengths
before it, and its descriptor shortened to what was drained. -/
def Playback.primeTransfer {w : Nat} : Nat → Nat → List Nat → Playback w × Transfer → Playback w × Transfer
  | _, _, [], st => st
  | p, offset, bytes :: rest, (pb, x) =>
    let (pb', out) := pb.drainRing bytes
    primeTransfer (p + 1) (offset + bytes) rest (pb', (x.storeAt offset out).setLength p out.length)

theorem Playback.primeTransfer_eventSide {w : Nat} (p offset : Nat) (rest : List Nat) (pb : Playback w) (x : Transfer) :
    (primeTransfer p offset rest (pb, x)).1.eventSide = pb.eventSide := by
  induction rest generalizing p offset pb x with
  | nil => rfl
  | cons bytes rest ih => exact ih ..

namespace Driver

variable {w : Nat} (d : Driver w)

/-- The session reset of `start`, for a duplex session. `queuedOutFrames_` is not among what is reset. -/
def start (format : StreamFormat) : Driver w :=
  { d with
    pb := { d.pb with
      format, ring := { d.pb.ring with head := 0, tail := 0 }, writtenFrames := 0, playedFrames := 0
      playbackOverruns := 0, playbackUnderruns := 0, playbackOverrunActive := false, playbackUnderrunActive := false
      playbackShortPackets := 0, playbackShortFrames := 0, playbackCredit := 0
      writesSinceDrain := 0, maxWritesBetweenDrains := 0, playbackStarted := false }
    stopRequested := false, transportFailed := false, implicitZeroRunwayActive := false, streaming := false
    stats := { d.stats with
      deferredTransfers := 0, deferredNoMetadata := 0, deferredNoPcm := 0, zeroRunwayEvents := 0
      implicitMetadataInvalid := 0 } }

/-- The capture reset of `startDuplex`. -/
def resetCapture (format : StreamFormat) : Driver w :=
  { d with
    cap := { d.cap with
      format, ring := { d.cap.ring with head := 0, tail := 0 }, captureOverruns := 0, captureUnderruns := 0
      capturePacketDrops := 0, captureSequence := 0 }
    fifo := { d.fifo with implicitRead := 0, implicitWrite := 0, metadataFifoOverruns := 0 }
    implicitZeroRunwayActive := false
    stats := { d.stats with
      deferredTransfers := 0, zeroRunwayEvents := 0, captureTransferErrors := 0, playbackTransferErrors := 0 } }

/-- One initial submission: counted in flight, submitted, and for an OUT transfer queued. -/
def submitFirst (ok : Xfer → Bool) (lengths : Xfer → List Nat) (x : Xfer) : Option (Driver w) :=
  if ok x then
    match x with
    | .out i => some
      ((({ d with inflight := d.inflight + 1 } : Driver w).submit x true (d.transfers i).lengths).queueSubmitted i false)
    | .feedback _ => some (({ d with inflight := d.inflight + 1 } : Driver w).submit x true (lengths x))
    | .capture _ => some (({ d with captureInflight := d.captureInflight + 1 } : Driver w).submit x true (lengths x))
  else none

/-- `startCapturePump` with the endpoint's packet size `mps`. -/
def startCapturePump (mps : Int) (ok : Xfer → Bool) : Option (Driver w) :=
  let f := d.cap.format
  let capturePacketsPerSecond := packetsPerSecondForInterval f.isHighSpeed f.bInterval
  let packets := d.userspaceBufferConfig.packetsPerTransferAt capturePacketsPerSecond
  let captureNominalMax := (f.sampleRateHz + capturePacketsPerSecond - 1) / capturePacketsPerSecond
  let capturePhysicalMax := mps.toNat / d.cap.stride
  if mps ≤ 0 ∨ d.cap.stride = 0 ∨ capturePhysicalMax < captureNominalMax then none
  else
    ((List.range d.geometry.transferCount).map Xfer.capture).foldlM
      (fun d' x => submitFirst d' ok (fun _ => List.replicate packets mps.toNat) x)
      { d with
        cap := { d.cap with captureActive := true }
        geometry := { d.geometry with
          capturePacketsPerTransfer := packets
          captureMaxFramesPerPacket := min capturePhysicalMax (captureNominalMax + 1) } }

/-- The packet plan of the initial OUT transfers and the FIFO it leaves: the capture layout for an
implicit-feedback sink, the nominal cadence otherwise. -/
def initialPlan (maxFramesPerPacket : Nat) (nominal : List Nat) : Option (List Nat × MetaFifo) :=
  if d.implicitMode then d.fifo.primePackets maxFramesPerPacket nominal.length else some (nominal, d.fifo)

def feedbackTransfers : Nat := if d.pb.format.feedbackEndpointAddress ≠ 0 then 2 else 0

/-- `startIsoPump(false)` with the endpoint's packet size `maxPacket`. -/
def startIsoPump (maxPacket : Int) (alloc : Bool) : Option (Driver w) :=
  let f := d.pb.format
  let rate := f.microframesPerSec
  let count := d.geometry.transferCount
  let packets := d.userspaceBufferConfig.packetsPerTransferAt rate
  let baseFrames := f.sampleRateHz / rate
  let rateRemainder := f.sampleRateHz % rate
  let nominalMaxFrames := baseFrames + if 0 < rateRemainder then 1 else 0
  let physicalMaxFrames := maxPacket.toNat / d.stride
  let maxFramesPerPacket := min physicalMaxFrames (nominalMaxFrames + 1)
  let nominal := (RationalPacketScheduler.reset (UInt32.ofNat f.sampleRateHz) (UInt32.ofNat rate)).nextN (count * packets)
  if d.stride = 0 ∨ maxPacket ≤ 0 ∨ physicalMaxFrames < nominalMaxFrames ∨ !alloc then none
  else
    (d.initialPlan maxFramesPerPacket nominal.1).map fun (plan, fifo) =>
      let transfers := Transfer.planned plan packets d.stride (maxFramesPerPacket * d.stride)
      let exactInitialPacketFrames := ((List.range count).map fun t => (transfers t).descriptorFrames d.stride).sum
      -- the prime is bounded by the default ring size, whatever ring is installed
      let maxPrime := kPlaybackRingBytes / max 1 d.stride - d.geometry.graphQuantum
      { d with
        fifo, transfers, pending := [], outCount := count, feedbackCount := d.feedbackTransfers
        pacing := {
          maxFramesPerPacket, nominalScheduler := nominal.2, fracAccumulator_q16 := 0
          framesPerUframe_q16 := (UInt32.ofNat baseFrames <<< 16) + UInt32.ofNat (rateRemainder * 2 ^ 16 / rate) }
        geometry := { d.geometry with
          packetIntervalUframes := f.packetIntervalUframes, playbackPacketsPerTransfer := packets
          exactInitialPacketFrames }
        pb := { d.pb with
          startupPrimeFrames :=
            startupPlaybackPrimeFrames maxPrime exactInitialPacketFrames d.pb.playbackTargetFrames } }

def primeOut (i : Nat) : Driver w :=
  let r := Playback.primeTransfer 0 0 (d.transfers i).lengths (d.pb, d.transfers i)
  { d with pb := r.1, transfers := Function.update d.transfers i r.2 }

def initialXfers : List Xfer := (List.range d.feedbackCount).map .feedback ++ (List.range d.outCount).map .out

def feedbackBytes : Nat := if 0 < d.pb.format.feedbackMaxPacketSize then d.pb.format.feedbackMaxPacketSize else 4

def submitIsoPump (ok : Xfer → Bool) : Option (Driver w) :=
  if d.stopRequested then none
  else if d.stride = 0 ∨ d.pb.startupPrimeFrames > d.pb.bufferedFrames then none
  else
    -- all initial payloads are filled before the first submit
    let filled := (List.range d.outCount).foldl primeOut d
    (d.initialXfers.foldlM (fun d' x => submitFirst d' ok (fun _ => [d.feedbackBytes]) x) filled).map fun d' =>
      { d' with pb := { d'.pb with playbackStarted := true }, streaming := true }

def startPlayback (ok : Xfer → Bool) : Option (Driver w) :=
  if d.pb.playbackStarted then none
  else submitIsoPump { d with pb := { d.pb with playbackStarted := true } } ok

end Driver

end UacDriver

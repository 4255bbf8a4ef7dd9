import UacDriver.Pump
import UacDriver.Session

/-!
# Stopping the pumps, failed starts and reconfiguration

The functions of the driver that end a session or prepare the next one: `stopIsoPump` and `stopCapturePump` with the
completions that libusb delivers while they wait, what a failed `startIsoPump` leaves behind, and
`configureUserspaceBuffers` on the whole driver.
-/

namespace UacDriver

open Runs

namespace Driver

variable {w : Nat} (d : Driver w)

/-- The end of `stopIsoPump`: every OUT and feedback transfer is freed. -/
def freeOut : Driver w :=
  { d with
    pending := [], outCount := 0, feedbackCount := 0
    pb := { d.pb with queuedOutFrames := 0, playbackStarted := false } }

/-- `stopIsoPump`; `served` are the completions delivered until `inflight_` is zero or the 500 ms are over. -/
def stopIsoPump (served : List DriverAct) : Driver w × Bool :=
  let d' := run step { d with stopRequested := true } served
  if d'.inflight ≠ 0 then (d', false) else (d'.freeOut, true)

def freeCapture : Driver w := { d with geometry := { d.geometry with captureMaxFramesPerPacket := 0 } }

def stopCapturePump (served : List DriverAct) : Driver w × Bool :=
  let d' := run step d served
  if d'.captureInflight ≠ 0 then (d', false) else (d'.freeCapture, true)

/-- `startIsoPump` returns before it has allocated anything. -/
def pumpRefused (maxPacket : Int) : Bool :=
  let f := d.pb.format
  let nominalMaxFrames := f.sampleRateHz / f.microframesPerSec + if 0 < f.sampleRateHz % f.microframesPerSec then 1 else 0
  decide (d.stride = 0 ∨ maxPacket ≤ 0 ∨ maxPacket.toNat / d.stride < nominalMaxFrames)

/-- The stores of `startIsoPump` before its first check. -/
def pumpGeometry : Driver w :=
  let f := d.pb.format
  let rate := f.microframesPerSec
  { d with
    pending := []
    geometry := { d.geometry with
      packetIntervalUframes := f.packetIntervalUframes
      playbackPacketsPerTransfer := d.userspaceBufferConfig.packetsPerTransferAt rate }
    pacing := { d.pacing with
      nominalScheduler := .reset (UInt32.ofNat f.sampleRateHz) (UInt32.ofNat rate), fracAccumulator_q16 := 0
      framesPerUframe_q16 :=
        (UInt32.ofNat (f.sampleRateHz / rate) <<< 16) + UInt32.ofNat (f.sampleRateHz % rate * 2 ^ 16 / rate) } }

/-- The pacing once the scheduler has sized the packets of `transfers` OUT transfers. -/
def sizedPacing (maxPacket : Int) (transfers : Nat) : Pacing :=
  let f := d.pb.format
  let rate := f.microframesPerSec
  let nominalMaxFrames := f.sampleRateHz / rate + if 0 < f.sampleRateHz % rate then 1 else 0
  let packets := d.userspaceBufferConfig.packetsPerTransferAt rate
  { d.pumpGeometry.pacing with
    maxFramesPerPacket := min (maxPacket.toNat / d.stride) (nominalMaxFrames + 1)
    nominalScheduler := (d.pumpGeometry.pacing.nominalScheduler.nextN (transfers * packets)).2 }

/-- What a `startIsoPump` that returns false leaves behind; `allocated` OUT transfers are allocated before the one that is
not, if `alloc` is false. With an OUT transfer missing the layout FIFO has not been read. Behind the OUT transfers it is
read, and the plan and the prime are stored; what is missing then is a feedback transfer. -/
def abandonIsoPump (maxPacket : Int) (alloc : Bool) (allocated : Nat) : Driver w :=
  if d.pumpRefused maxPacket then d.pumpGeometry
  else if !alloc ∧ allocated < d.geometry.transferCount then
    { d.pumpGeometry.freeOut with stopRequested := true, pacing := d.sizedPacing maxPacket allocated }
  else
    match d.startIsoPump maxPacket true with
    | none =>
      -- the layout FIFO was exhausted
      { d.pumpGeometry.freeOut with
        stopRequested := true, pacing := d.sizedPacing maxPacket d.geometry.transferCount
        fifo := { d.fifo with implicitRead := d.fifo.implicitWrite } }
    | some prepared => { prepared.freeOut with stopRequested := true }

/-- Either nothing was allocated, or what was allocated is freed again. -/
theorem abandonIsoPump_cases (maxPacket : Int) (alloc : Bool) (allocated : Nat) :
    (∃ pacing geometry, d.abandonIsoPump maxPacket alloc allocated = { d with pending := [], pacing, geometry } ∧
      geometry.transferCount = d.geometry.transferCount) ∨
    ∃ pacing geometry fifo transfers startupPrimeFrames, d.abandonIsoPump maxPacket alloc allocated = { d with
        pending := [], outCount := 0, feedbackCount := 0, stopRequested := true, pacing, geometry, fifo, transfers
        pb := { d.pb with queuedOutFrames := 0, playbackStarted := false, startupPrimeFrames } } ∧
      geometry.transferCount = d.geometry.transferCount := by
  unfold abandonIsoPump
  split
  · exact .inl ⟨d.pumpGeometry.pacing, d.pumpGeometry.geometry, rfl, rfl⟩
  split
  · exact .inr ⟨d.sizedPacing maxPacket allocated, d.pumpGeometry.geometry, d.fifo, d.transfers,
      d.pb.startupPrimeFrames, rfl, rfl⟩
  split
  · exact .inr ⟨d.sizedPacing maxPacket d.geometry.transferCount, d.pumpGeometry.geometry, _, d.transfers,
      d.pb.startupPrimeFrames, rfl, rfl⟩
  · rename_i prepared hprepared
    unfold startIsoPump at hprepared
    dsimp only at hprepared
    obtain ⟨-, hplan⟩ := Option.ite_none_left_eq_some.1 hprepared
    obtain ⟨⟨plan, fifo⟩, -, rfl⟩ := Option.map_eq_some_iff.1 hplan
    refine .inr ⟨_, _, _, _, _, rfl, ?_⟩
    rfl

/-- `configureUserspaceBuffers`: both rings are replaced; nothing on a refusal. -/
def configureUserspaceBuffers (c : UserspaceBufferConfig) : Option (Driver w) :=
  (d.pb.configureUserspaceBuffers d.streaming c).map fun pb =>
    { d with
      pb
      cap := { d.cap with ring := Ring.assign pb.ring.size, captureLive := false, startupCaptureDiscardFrames := 0 }
      userspaceBufferConfig := c
      geometry := { d.geometry with transferCount := c.resolvedTransferCount } }

/-- The driver as constructed: rings of `z` bytes and the default policy. -/
def constructed (z : RingSize w) : Driver w where
  pb := { ring := Ring.assign z }
  cap := { ring := Ring.assign z }
  geometry := { graphQuantum := 64, playbackPacketsPerTransfer := 1, capturePacketsPerTransfer := 1 }

end Driver

end UacDriver

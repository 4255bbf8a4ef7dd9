import Mathlib.Data.Nat.Basic
import Mathlib.Data.Int.Basic
import Mathlib.Algebra.Group.Nat.Defs

/-!
# Transfer geometry and packet scheduling

The constants, the negotiated stream format and the arithmetic helpers of `UsbScheduling.h` that the
callbacks and the pumps use. Frame counts that the source keeps in an `int` and never lets go negative
are naturals here; requests that may be negative stay integers.
-/

namespace UacDriver

def kMaxTransferCount : Nat := 8
def kMinPacketsPerTransfer : Nat := 1
def kMaxPacketsPerTransfer : Nat := 8
def kImplicitFifoCapacity : Nat := 256
def kPlaybackRingBytes : Nat := 65536
def kDefaultNumTransfers : Nat := 4
def kExplicitZeroFrames : Int := -1
/-- `std::numeric_limits<int>::max()`. -/
def kIntMax : Nat := 2147483647

/-- Negotiated stream parameters. -/
structure StreamFormat where
  sampleRateHz : Nat := 0
  bitsPerSample : Nat := 0
  bytesPerSample : Nat := 0
  channels : Nat := 0
  interfaceNumber : Nat := 0
  altSetting : Nat := 0
  endpointAddress : Nat := 0
  syncEndpointAddress : Nat := 0
  terminalLink : Nat := 0
  maxPacketSize : Nat := 0
  clockSourceId : Nat := 0
  controlInterfaceNum : Nat := 0
  isHighSpeed : Bool := true
  bInterval : Nat := 1
  uacVersion : Nat := 0x0200
  feedbackEndpointAddress : Nat := 0
  feedbackMaxPacketSize : Nat := 0
  feedbackInterval : Nat := 0
  implicitFeedback : Bool := false
  candidateClockIds : List Nat := []

def StreamFormat.frameStride (f : StreamFormat) : Nat := f.channels * f.bytesPerSample

/-- The buffering request; zero selects the automatic policy of a term. -/
structure UserspaceBufferConfig where
  playbackTargetFrames : Int := 0
  startupPrimeFrames : Int := 0
  writeHeadroomFrames : Int := 0
  captureLimitFrames : Int := 0
  captureTargetFrames : Int := 0
  captureHeadroomFrames : Int := 0
  captureDeadlineSlackFrames : Int := 0
  transferCount : Int := 0
  packetsPerTransfer : Int := 0
  ringCapacityBytes : Nat := 0

/-- `config.ringCapacityBytes == 0 ? kRingBytes : config.ringCapacityBytes`. -/
def UserspaceBufferConfig.requestedCapacity (c : UserspaceBufferConfig) : Nat :=
  if c.ringCapacityBytes = 0 then kPlaybackRingBytes else c.ringCapacityBytes

/-- The request checks of `configureUserspaceBuffers`, without the streaming guard. -/
def UserspaceBufferConfig.accepted (c : UserspaceBufferConfig) : Bool :=
  !(c.requestedCapacity < 4096 || c.requestedCapacity > 2 ^ 20 ||
    (c.requestedCapacity &&& (c.requestedCapacity - 1)) != 0 ||
    (c.transferCount != 0 && (c.transferCount < 1 || c.transferCount > kMaxTransferCount)) ||
    (c.packetsPerTransfer != 0 &&
      (c.packetsPerTransfer < kMinPacketsPerTransfer || c.packetsPerTransfer > kMaxPacketsPerTransfer)) ||
    c.playbackTargetFrames < 0 || c.startupPrimeFrames < 0 || c.writeHeadroomFrames < 0 ||
    c.captureLimitFrames < 0 || c.captureTargetFrames < kExplicitZeroFrames ||
    c.captureHeadroomFrames < kExplicitZeroFrames || c.captureDeadlineSlackFrames < kExplicitZeroFrames)

def UserspaceBufferConfig.resolvedTransferCount (c : UserspaceBufferConfig) : Nat :=
  if c.transferCount ≠ 0 then c.transferCount.toNat else kDefaultNumTransfers

theorem UserspaceBufferConfig.resolvedTransferCount_le {c : UserspaceBufferConfig} (h : c.accepted = true) :
    c.resolvedTransferCount ≤ kMaxTransferCount := by
  simp only [accepted, Bool.not_eq_true', Bool.or_eq_false_iff, Bool.and_eq_false_iff, bne_eq_false_iff_eq,
    decide_eq_false_iff_not] at h
  have hcount := h.1.1.1.1.1.1.1.1.2
  unfold resolvedTransferCount
  split
  · rename_i hne
    rcases hcount with h0 | ⟨-, hle⟩
    · exact absurd h0 hne
    · omega
  · decide

def packetsPerSecondForInterval (highSpeed : Bool) (bInterval : Nat) : Nat :=
  let hostPeriods := if highSpeed then 8000 else 1000
  let interval := if highSpeed then 2 ^ min (bInterval - 1) 15 else max 1 bInterval
  max 1 (hostPeriods / interval)

def packetsPerTransferForRate (packetsPerSecond : Nat) : Nat :=
  if packetsPerSecond ≥ 8000 then 8
  else if packetsPerSecond ≥ 4000 then 4
  else if packetsPerSecond ≥ 2000 then 2
  else 1

def nominalTransferFrames (sampleRate packetsPerTransfer packetsPerSecond : Nat) : Nat :=
  if sampleRate = 0 ∨ packetsPerTransfer = 0 ∨ packetsPerSecond = 0 then 0
  else min kIntMax ((sampleRate * packetsPerTransfer + packetsPerSecond - 1) / packetsPerSecond)

def startupPlaybackPrimeFrames (maxTarget exactInitialPacketFrames playbackTargetFrames : Nat) : Nat :=
  if maxTarget = 0 then 0 else min maxTarget (max exactInitialPacketFrames playbackTargetFrames)

/-- The exact rational packet scheduler; all four fields are `uint32_t`. -/
structure RationalPacketScheduler where
  whole : UInt32 := 0
  fraction : UInt32 := 0
  period : UInt32 := 1
  remainder : UInt32 := 0

namespace RationalPacketScheduler

def reset (rate packetsPerSecond : UInt32) : RationalPacketScheduler :=
  let period := if packetsPerSecond ≠ 0 then packetsPerSecond else 1
  { whole := rate / period, fraction := rate % period, period, remainder := 0 }

def next (s : RationalPacketScheduler) : UInt32 × RationalPacketScheduler :=
  if s.remainder ≥ s.period - s.fraction then
    (s.whole + 1, { s with remainder := s.remainder - (s.period - s.fraction) })
  else
    (s.whole, { s with remainder := s.remainder + s.fraction })

def nextN : Nat → RationalPacketScheduler → List Nat × RationalPacketScheduler
  | 0, s => ([], s)
  | n + 1, s => ((s.next).1.toNat :: (nextN n s.next.2).1, (nextN n s.next.2).2)

@[simp] theorem nextN_length (n : Nat) (s : RationalPacketScheduler) : (s.nextN n).1.length = n := by
  induction n generalizing s with
  | zero => rfl
  | succ n ih => simp [nextN, ih]

end RationalPacketScheduler

end UacDriver

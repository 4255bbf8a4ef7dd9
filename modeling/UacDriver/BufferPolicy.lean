import UacDriver.Scheduling

/-!
# The buffering policy

How `setUserspaceBufferConfig` turns a request into the eight policy terms of the driver: the automatic rules of
`UsbScheduling.h`, the budget checks against the rings, and the rejection. A request is resolved against what the
pumps have negotiated so far (`Negotiated`); `none` is the rejected request, for which the driver stores zero in
every term but the graph quantum. All terms are integers here, as in the source.
-/

namespace UacDriver

def kMinGraphQuantum : Int := 4
def kMaxGraphQuantum : Int := 1024
def kDefaultPeriodMultiplier : Int := 3
def kMinPeriodMultiplier : Int := 1
def kMaxPeriodMultiplier : Int := 8

structure PlaybackWatermarkConfig where
  graphQuantum : Int
  targetFrames : Int
  frameLimit : Int

def clampPeriodMultiplier (multiplier : Int) : Int := max kMinPeriodMultiplier (min multiplier kMaxPeriodMultiplier)

def playbackWatermarkConfig (requestedFrames periodMultiplier : Int) : PlaybackWatermarkConfig :=
  let quantum := max kMinGraphQuantum (min requestedFrames kMaxGraphQuantum)
  let target := min kMaxGraphQuantum (quantum * clampPeriodMultiplier periodMultiplier)
  ⟨quantum, target, quantum + target⟩

def resolveOptionalFrames (requested automatic : Int) : Int :=
  if requested = kExplicitZeroFrames then 0 else if requested = 0 then automatic else requested

def checkedFrameBudgetFits (first second third capacity : Int) : Bool :=
  if first < 0 ∨ second < 0 ∨ third < 0 ∨ capacity < 0 then false else first + second + third ≤ capacity

def automaticWriteHeadroomFrames (graphQuantum drainChunkFrames : Int) : Int :=
  let quantum := max 0 graphQuantum
  if drainChunkFrames ≤ 0 then quantum
  else
    let step := if quantum > drainChunkFrames then quantum - drainChunkFrames else 0
    if quantum > kIntMax - step then kIntMax else quantum + step

def automaticPlaybackTargetFrames (quantum drainChunkFrames periodTargetFrames : Int) : Int :=
  if quantum ≤ 0 ∨ drainChunkFrames ≤ 0 then periodTargetFrames
  else if quantum > kMaxGraphQuantum - drainChunkFrames then kMaxGraphQuantum
  else quantum + drainChunkFrames

/-- The driver fields a request is resolved against. -/
structure Negotiated where
  frameStride : Nat
  sampleRateHz : Nat
  ringBytes : Nat
  transferCount : Nat
  exactInitialPacketFrames : Nat
  playbackPacketsPerTransfer : Nat
  microframesPerSec : Nat
  captureTransferFrames : Nat

/-- The eight terms that `setUserspaceBufferConfig` stores. -/
structure BufferPolicy where
  graphQuantum : Int
  playbackTargetFrames : Int
  startupPrimeFrames : Int
  writeHeadroomFrames : Int
  captureLimitFrames : Int
  captureTargetFrames : Int
  captureHeadroomFrames : Int
  captureDeadlineSlackFrames : Int
  deriving DecidableEq

namespace Negotiated

variable (n : Negotiated)

/-- Frames the playback ring holds, none before a format is negotiated. -/
def physicalFrames : Nat := if 0 < n.frameStride then n.ringBytes / n.frameStride else 0

/-- The terms a request asks for, before the budget checks. -/
def requestedPolicy (frames : Int) (c : UserspaceBufferConfig) (periodMultiplier : Int) : BufferPolicy :=
  let autoConfig := playbackWatermarkConfig frames periodMultiplier
  let drainChunkFrames := if 0 < n.transferCount then n.exactInitialPacketFrames / n.transferCount else 0
  let headroom :=
    if c.writeHeadroomFrames = 0 then automaticWriteHeadroomFrames autoConfig.graphQuantum drainChunkFrames
    else c.writeHeadroomFrames
  let nominalDrainChunkFrames :=
    nominalTransferFrames n.sampleRateHz n.playbackPacketsPerTransfer n.microframesPerSec
  let requestedTarget :=
    if c.playbackTargetFrames = 0 then
      automaticPlaybackTargetFrames autoConfig.graphQuantum nominalDrainChunkFrames autoConfig.targetFrames
    else c.playbackTargetFrames
  let automaticPrime :=
    startupPlaybackPrimeFrames n.physicalFrames n.exactInitialPacketFrames requestedTarget.toNat
  let captureWave := max 1 n.captureTransferFrames
  { graphQuantum := autoConfig.graphQuantum
    playbackTargetFrames := requestedTarget
    startupPrimeFrames := if c.startupPrimeFrames = 0 then automaticPrime else c.startupPrimeFrames
    writeHeadroomFrames := headroom
    captureLimitFrames := c.captureLimitFrames
    captureTargetFrames := resolveOptionalFrames c.captureTargetFrames captureWave
    captureHeadroomFrames := resolveOptionalFrames c.captureHeadroomFrames captureWave
    captureDeadlineSlackFrames := resolveOptionalFrames c.captureDeadlineSlackFrames captureWave }

/-- The `valid` of the source; both budgets are checked against the frames of the playback ring. -/
def admits (p : BufferPolicy) : Bool :=
  checkedFrameBudgetFits p.playbackTargetFrames p.writeHeadroomFrames 0 n.physicalFrames &&
  p.startupPrimeFrames ≥ n.exactInitialPacketFrames && p.startupPrimeFrames ≤ n.physicalFrames &&
  checkedFrameBudgetFits (max 1 n.captureTransferFrames) p.captureTargetFrames p.captureHeadroomFrames n.physicalFrames

def resolvePolicy (frames : Int) (c : UserspaceBufferConfig) (periodMultiplier : Int) : Option BufferPolicy :=
  let p := n.requestedPolicy frames c periodMultiplier
  if n.admits p then some p else none

variable {n}

/-- An accepted request covers the initial packet plan and fits the ring. -/
theorem prime_of_resolvePolicy {frames periodMultiplier : Int} {c : UserspaceBufferConfig} {p : BufferPolicy}
    (h : n.resolvePolicy frames c periodMultiplier = some p) :
    (n.exactInitialPacketFrames : Int) ≤ p.startupPrimeFrames ∧ p.startupPrimeFrames ≤ n.physicalFrames := by
  unfold resolvePolicy at h
  dsimp only at h
  split at h
  · rename_i hv
    cases h
    simp only [admits, Bool.and_eq_true, decide_eq_true_eq] at hv
    exact ⟨hv.1.1.2, hv.1.2⟩
  · cases h

end Negotiated

end UacDriver

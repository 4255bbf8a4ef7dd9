import UacDriver.StartupPrime
import UacDriver.Descriptors

/-!
# The policy resolver in machine integers

The resolver of `BufferPolicy` computes with integers of any size. Here is the same code with every signed operation of
the source checked against the type it is made in, `int` or `int64_t`; a result outside the type is no result. On the
fields of a driver the two agree: the clamps and the saturation come before anything can leave its type.
-/

namespace UacDriver

/-- The value of an `int64_t` expression, if it has one. -/
def checkedInt64 (x : Int) : Option Int := if -2 ^ 63 ≤ x ∧ x < 2 ^ 63 then some x else none

/-- The values of the type `int`. -/
def IsInt (x : Int) : Prop := -2 ^ 31 ≤ x ∧ x < 2 ^ 31

theorem checkedInt_eq {x : Int} (h : IsInt x) : checkedInt x = some x := if_pos h

theorem checkedInt64_eq {x : Int} (h : -2 ^ 63 ≤ x ∧ x < 2 ^ 63) : checkedInt64 x = some x := if_pos h

/-! ### The helpers, checked -/

def playbackWatermarkConfigChecked (requestedFrames periodMultiplier : Int) : Option PlaybackWatermarkConfig := do
  let quantum := max kMinGraphQuantum (min requestedFrames kMaxGraphQuantum)
  let periods ← checkedInt (quantum * clampPeriodMultiplier periodMultiplier)
  let target := min kMaxGraphQuantum periods
  let frameLimit ← checkedInt (quantum + target)
  some ⟨quantum, target, frameLimit⟩

def automaticWriteHeadroomFramesChecked (graphQuantum drainChunkFrames : Int) : Option Int := do
  let quantum := max 0 graphQuantum
  if drainChunkFrames ≤ 0 then some quantum
  else
    let step ← if quantum > drainChunkFrames then checkedInt (quantum - drainChunkFrames) else some 0
    let room ← checkedInt (kIntMax - step)
    if quantum > room then some kIntMax else checkedInt (quantum + step)

def automaticPlaybackTargetFramesChecked (quantum drainChunkFrames periodTargetFrames : Int) : Option Int := do
  if quantum ≤ 0 ∨ drainChunkFrames ≤ 0 then some periodTargetFrames
  else
    let room ← checkedInt (kMaxGraphQuantum - drainChunkFrames)
    if quantum > room then some kMaxGraphQuantum else checkedInt (quantum + drainChunkFrames)

def nominalTransferFramesChecked (sampleRate packetsPerTransfer packetsPerSecond : Nat) : Option Nat := do
  if sampleRate = 0 ∨ packetsPerTransfer = 0 ∨ packetsPerSecond = 0 then some 0
  else
    let numerator ← checkedInt64 (sampleRate * packetsPerTransfer)
    let raised ← checkedInt64 (numerator + packetsPerSecond)
    let rounded ← checkedInt64 (raised - 1)
    some (min kIntMax (rounded.toNat / packetsPerSecond))

def checkedFrameBudgetFitsChecked (first second third capacity : Int) : Option Bool := do
  if first < 0 ∨ second < 0 ∨ third < 0 ∨ capacity < 0 then some false
  else
    let pair ← checkedInt64 (first + second)
    let total ← checkedInt64 (pair + third)
    some (total ≤ capacity)

theorem playbackWatermarkConfigChecked_eq (requestedFrames periodMultiplier : Int) :
    playbackWatermarkConfigChecked requestedFrames periodMultiplier =
      some (playbackWatermarkConfig requestedFrames periodMultiplier) := by
  have hquantum : 4 ≤ max kMinGraphQuantum (min requestedFrames kMaxGraphQuantum) ∧
      max kMinGraphQuantum (min requestedFrames kMaxGraphQuantum) ≤ 1024 := by
    simp only [kMinGraphQuantum, kMaxGraphQuantum]
    omega
  have hmult : 1 ≤ clampPeriodMultiplier periodMultiplier ∧ clampPeriodMultiplier periodMultiplier ≤ 8 := by
    simp only [clampPeriodMultiplier, kMinPeriodMultiplier, kMaxPeriodMultiplier]
    omega
  unfold playbackWatermarkConfigChecked playbackWatermarkConfig
  generalize max kMinGraphQuantum (min requestedFrames kMaxGraphQuantum) = quantum at hquantum
  generalize clampPeriodMultiplier periodMultiplier = multiplier at hmult
  have hlow : 0 ≤ quantum * multiplier := Int.mul_nonneg (by omega) (by omega)
  have hhigh : quantum * multiplier ≤ 1024 * 8 := Int.mul_le_mul hquantum.2 hmult.2 (by omega) (by omega)
  dsimp only
  rw [checkedInt_eq ⟨by omega, by omega⟩, Option.bind_eq_bind, Option.bind_some, checkedInt_eq]
  · rfl
  · simp only [kMaxGraphQuantum]
    constructor <;> omega

theorem automaticWriteHeadroomFramesChecked_eq {graphQuantum drainChunkFrames : Int} (hquantum : IsInt graphQuantum)
    (hdrain : IsInt drainChunkFrames) :
    automaticWriteHeadroomFramesChecked graphQuantum drainChunkFrames =
      some (automaticWriteHeadroomFrames graphQuantum drainChunkFrames) := by
  obtain ⟨hq₁, hq₂⟩ := hquantum
  obtain ⟨hd₁, hd₂⟩ := hdrain
  have hmax : (kIntMax : Int) = 2147483647 := rfl
  unfold automaticWriteHeadroomFramesChecked automaticWriteHeadroomFrames
  dsimp only
  by_cases hzero : drainChunkFrames ≤ 0
  · rw [if_pos hzero, if_pos hzero]
  · rw [if_neg hzero, if_neg hzero]
    by_cases hgt : max 0 graphQuantum > drainChunkFrames
    · rw [if_pos hgt, if_pos hgt, checkedInt_eq ⟨by omega, by omega⟩, Option.bind_eq_bind, Option.bind_some,
        checkedInt_eq ⟨by omega, by omega⟩, Option.bind_some]
      split
      · rfl
      · exact checkedInt_eq ⟨by omega, by omega⟩
    · rw [if_neg hgt, if_neg hgt, Option.bind_eq_bind, Option.bind_some, checkedInt_eq ⟨by omega, by omega⟩,
        Option.bind_some]
      split
      · rfl
      · exact checkedInt_eq ⟨by omega, by omega⟩

theorem automaticPlaybackTargetFramesChecked_eq {quantum drainChunkFrames : Int} (periodTargetFrames : Int)
    (hquantum : IsInt quantum) (hdrain : IsInt drainChunkFrames) :
    automaticPlaybackTargetFramesChecked quantum drainChunkFrames periodTargetFrames =
      some (automaticPlaybackTargetFrames quantum drainChunkFrames periodTargetFrames) := by
  obtain ⟨hq₁, hq₂⟩ := hquantum
  obtain ⟨hd₁, hd₂⟩ := hdrain
  have hmax : kMaxGraphQuantum = 1024 := rfl
  unfold automaticPlaybackTargetFramesChecked automaticPlaybackTargetFrames
  by_cases hnone : quantum ≤ 0 ∨ drainChunkFrames ≤ 0
  · rw [if_pos hnone, if_pos hnone]
  · rw [if_neg hnone, if_neg hnone, checkedInt_eq ⟨by omega, by omega⟩, Option.bind_eq_bind, Option.bind_some]
    by_cases hlarge : quantum > kMaxGraphQuantum - drainChunkFrames
    · rw [if_pos hlarge, if_pos hlarge]
    · rw [if_neg hlarge, if_neg hlarge]
      exact checkedInt_eq ⟨by omega, by omega⟩

theorem nominalTransferFramesChecked_eq {sampleRate packetsPerTransfer packetsPerSecond : Nat}
    (hrate : sampleRate ≤ kIntMax) (hpackets : packetsPerTransfer ≤ kIntMax) (hpps : packetsPerSecond ≤ kIntMax) :
    nominalTransferFramesChecked sampleRate packetsPerTransfer packetsPerSecond =
      some (nominalTransferFrames sampleRate packetsPerTransfer packetsPerSecond) := by
  have hproduct : sampleRate * packetsPerTransfer ≤ kIntMax * kIntMax := Nat.mul_le_mul hrate hpackets
  unfold nominalTransferFramesChecked nominalTransferFrames
  simp only [kIntMax] at hrate hpackets hpps hproduct
  split
  · rfl
  · rw [← Int.natCast_mul, checkedInt64_eq ⟨by omega, by omega⟩, Option.bind_eq_bind, Option.bind_some,
      checkedInt64_eq ⟨by omega, by omega⟩, Option.bind_some, checkedInt64_eq ⟨by omega, by omega⟩, Option.bind_some]
    congr 3
    omega

theorem checkedFrameBudgetFitsChecked_eq {first second third capacity : Int} (hfirst : IsInt first)
    (hsecond : IsInt second) (hthird : IsInt third) :
    checkedFrameBudgetFitsChecked first second third capacity =
      some (checkedFrameBudgetFits first second third capacity) := by
  obtain ⟨hf₁, hf₂⟩ := hfirst
  obtain ⟨hs₁, hs₂⟩ := hsecond
  obtain ⟨ht₁, ht₂⟩ := hthird
  unfold checkedFrameBudgetFitsChecked checkedFrameBudgetFits
  split
  · rfl
  · rw [checkedInt64_eq ⟨by omega, by omega⟩, Option.bind_eq_bind, Option.bind_some, checkedInt64_eq ⟨by omega, by omega⟩]
    rfl

/-! ### The resolver, checked -/

/-- The fields hold values of their types; `ring_` is no longer than `configureUserspaceBuffers` allows. -/
structure Negotiated.InRange (n : Negotiated) : Prop where
  sampleRateHz : n.sampleRateHz ≤ kIntMax
  ringBytes : n.ringBytes ≤ 2 ^ 20
  exactInitialPacketFrames : n.exactInitialPacketFrames ≤ kIntMax
  playbackPacketsPerTransfer : n.playbackPacketsPerTransfer ≤ kIntMax
  microframesPerSec : n.microframesPerSec ≤ kIntMax
  captureTransferFrames : n.captureTransferFrames ≤ kIntMax

/-- The terms of a request that the budgets add up. -/
structure UserspaceBufferConfig.InRange (c : UserspaceBufferConfig) : Prop where
  playbackTargetFrames : IsInt c.playbackTargetFrames
  writeHeadroomFrames : IsInt c.writeHeadroomFrames
  captureTargetFrames : IsInt c.captureTargetFrames
  captureHeadroomFrames : IsInt c.captureHeadroomFrames

namespace Negotiated

variable (n : Negotiated)

def physicalFramesChecked : Option Int :=
  if 0 < n.frameStride then checkedInt ((n.ringBytes / n.frameStride : Nat)) else some 0

/-- `setUserspaceBufferConfig` up to `valid`, checked. -/
def resolvePolicyChecked (frames : Int) (c : UserspaceBufferConfig) (periodMultiplier : Int) :
    Option (Option BufferPolicy) := do
  let autoConfig ← playbackWatermarkConfigChecked frames periodMultiplier
  let physicalFrames ← n.physicalFramesChecked
  let drainChunkFrames := if 0 < n.transferCount then n.exactInitialPacketFrames / n.transferCount else 0
  let automaticHeadroom ← automaticWriteHeadroomFramesChecked autoConfig.graphQuantum drainChunkFrames
  let headroom := if c.writeHeadroomFrames = 0 then automaticHeadroom else c.writeHeadroomFrames
  let nominalDrainChunkFrames ←
    nominalTransferFramesChecked n.sampleRateHz n.playbackPacketsPerTransfer n.microframesPerSec
  let automaticTarget ←
    automaticPlaybackTargetFramesChecked autoConfig.graphQuantum nominalDrainChunkFrames autoConfig.targetFrames
  let requestedTarget := if c.playbackTargetFrames = 0 then automaticTarget else c.playbackTargetFrames
  let automaticPrime :=
    startupPlaybackPrimeFrames physicalFrames.toNat n.exactInitialPacketFrames requestedTarget.toNat
  let prime : Int := if c.startupPrimeFrames = 0 then automaticPrime else c.startupPrimeFrames
  let captureWave := max 1 n.captureTransferFrames
  let captureTarget := resolveOptionalFrames c.captureTargetFrames captureWave
  let captureHeadroom := resolveOptionalFrames c.captureHeadroomFrames captureWave
  let playbackFits ← checkedFrameBudgetFitsChecked requestedTarget headroom 0 physicalFrames
  let captureFits ← checkedFrameBudgetFitsChecked captureWave captureTarget captureHeadroom physicalFrames
  let valid := playbackFits && prime ≥ n.exactInitialPacketFrames && prime ≤ physicalFrames && captureFits
  some (if valid then
      some {
        graphQuantum := autoConfig.graphQuantum
        playbackTargetFrames := requestedTarget
        startupPrimeFrames := prime
        writeHeadroomFrames := headroom
        captureLimitFrames := c.captureLimitFrames
        captureTargetFrames := captureTarget
        captureHeadroomFrames := captureHeadroom
        captureDeadlineSlackFrames := resolveOptionalFrames c.captureDeadlineSlackFrames captureWave }
    else none)

variable {n}

theorem physicalFrames_le (h : n.InRange) : n.physicalFrames ≤ 2 ^ 20 := by
  unfold physicalFrames
  split
  · exact (Nat.div_le_self _ _).trans h.ringBytes
  · exact Nat.zero_le _

theorem physicalFramesChecked_eq (h : n.InRange) : n.physicalFramesChecked = some (n.physicalFrames : Int) := by
  have hle := physicalFrames_le h
  unfold physicalFramesChecked
  unfold physicalFrames at hle ⊢
  split
  · rename_i hpos
    rw [if_pos hpos] at hle
    generalize n.ringBytes / n.frameStride = frames at hle
    exact checkedInt_eq ⟨by omega, by omega⟩
  · rfl

theorem graphQuantum_bounds (frames periodMultiplier : Int) :
    4 ≤ (playbackWatermarkConfig frames periodMultiplier).graphQuantum ∧
      (playbackWatermarkConfig frames periodMultiplier).graphQuantum ≤ 1024 := by
  simp only [playbackWatermarkConfig, kMinGraphQuantum, kMaxGraphQuantum]
  omega

theorem targetFrames_bounds (frames periodMultiplier : Int) :
    4 ≤ (playbackWatermarkConfig frames periodMultiplier).targetFrames ∧
      (playbackWatermarkConfig frames periodMultiplier).targetFrames ≤ 1024 := by
  have hquantum := (graphQuantum_bounds frames periodMultiplier).1
  have hmult : 1 ≤ clampPeriodMultiplier periodMultiplier := by
    simp only [clampPeriodMultiplier, kMinPeriodMultiplier, kMaxPeriodMultiplier]
    omega
  have hle := Int.mul_le_mul_of_nonneg_left hmult (Int.le_trans (by decide) hquantum)
  simp only [playbackWatermarkConfig, kMaxGraphQuantum] at hle hquantum ⊢
  omega

theorem automaticPlaybackTargetFrames_bounds {quantum periodTargetFrames : Int} (drainChunkFrames : Int)
    (hquantum : 4 ≤ quantum) (hperiod : 4 ≤ periodTargetFrames ∧ periodTargetFrames ≤ 1024) :
    4 ≤ automaticPlaybackTargetFrames quantum drainChunkFrames periodTargetFrames ∧
      automaticPlaybackTargetFrames quantum drainChunkFrames periodTargetFrames ≤ 1024 := by
  have hmax : kMaxGraphQuantum = 1024 := rfl
  unfold automaticPlaybackTargetFrames
  split
  · exact hperiod
  · split <;> omega

theorem automaticWriteHeadroomFrames_bounds {graphQuantum : Int} (drainChunkFrames : Int) (hquantum : graphQuantum ≤ 1024) :
    max 0 graphQuantum ≤ automaticWriteHeadroomFrames graphQuantum drainChunkFrames ∧
      automaticWriteHeadroomFrames graphQuantum drainChunkFrames ≤ 2048 := by
  have hmax : (kIntMax : Int) = 2147483647 := rfl
  unfold automaticWriteHeadroomFrames
  dsimp only
  split
  · omega
  · split <;> split <;> omega

theorem resolveOptionalFrames_isInt {requested automatic : Int} (hrequested : IsInt requested) (hauto : IsInt automatic) :
    IsInt (resolveOptionalFrames requested automatic) := by
  unfold resolveOptionalFrames
  split
  · exact ⟨by decide, by decide⟩
  · split
    · exact hauto
    · exact hrequested

/-- No step of the resolver leaves its type. -/
theorem resolvePolicyChecked_eq (h : n.InRange) {c : UserspaceBufferConfig} (hc : c.InRange)
    (frames periodMultiplier : Int) :
    n.resolvePolicyChecked frames c periodMultiplier = some (n.resolvePolicy frames c periodMultiplier) := by
  have hq := graphQuantum_bounds frames periodMultiplier
  have ht := targetFrames_bounds frames periodMultiplier
  have hexact := h.exactInitialPacketFrames
  have hcapture := h.captureTransferFrames
  have hdrain : (if 0 < n.transferCount then n.exactInitialPacketFrames / n.transferCount else 0) ≤ kIntMax := by
    split
    · exact (Nat.div_le_self _ _).trans hexact
    · exact Nat.zero_le _
  have hnominal : nominalTransferFrames n.sampleRateHz n.playbackPacketsPerTransfer n.microframesPerSec ≤ kIntMax := by
    unfold nominalTransferFrames
    split
    · exact Nat.zero_le _
    · exact Nat.min_le_left _ _
  have hwave : IsInt ((max 1 n.captureTransferFrames : Nat) : Int) := by
    simp only [kIntMax] at hcapture
    constructor <;> omega
  simp only [kIntMax] at hdrain hnominal
  have hauto := automaticPlaybackTargetFrames_bounds
    (nominalTransferFrames n.sampleRateHz n.playbackPacketsPerTransfer n.microframesPerSec) hq.1 ht
  have hroom := automaticWriteHeadroomFrames_bounds
    (if 0 < n.transferCount then n.exactInitialPacketFrames / n.transferCount else 0 : Nat) hq.2
  unfold resolvePolicyChecked
  simp only [Option.bind_eq_bind]
  rw [playbackWatermarkConfigChecked_eq, Option.bind_some, physicalFramesChecked_eq h, Option.bind_some,
    automaticWriteHeadroomFramesChecked_eq ⟨by omega, by omega⟩ ⟨by omega, by omega⟩, Option.bind_some,
    nominalTransferFramesChecked_eq h.sampleRateHz h.playbackPacketsPerTransfer h.microframesPerSec, Option.bind_some,
    automaticPlaybackTargetFramesChecked_eq _ ⟨by omega, by omega⟩ ⟨by omega, by omega⟩, Option.bind_some,
    checkedFrameBudgetFitsChecked_eq, Option.bind_some, checkedFrameBudgetFitsChecked_eq, Option.bind_some]
  · have hcast : ((max 1 n.captureTransferFrames : Nat) : Int) = max 1 (n.captureTransferFrames : Int) := by omega
    unfold resolvePolicy admits requestedPolicy
    dsimp only
    rw [Int.toNat_natCast, hcast]
  · exact hwave
  · exact resolveOptionalFrames_isInt hc.captureTargetFrames hwave
  · exact resolveOptionalFrames_isInt hc.captureHeadroomFrames hwave
  · split
    · exact ⟨by omega, by omega⟩
    · exact hc.playbackTargetFrames
  · split
    · exact ⟨by omega, by omega⟩
    · exact hc.writeHeadroomFrames
  · exact ⟨by decide, by decide⟩

end Negotiated

end UacDriver

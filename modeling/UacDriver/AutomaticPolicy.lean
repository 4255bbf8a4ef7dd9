import UacDriver.PolicySound

/-!
# The automatic policy on the default ring

A request of zeros asks for the automatic terms. The target covers the quantum and a nominal drain chunk, the headroom
the quantum and what it is longer than the chunk of the packet plan; both are bounded, the target by 1024 frames, but
their sum is not bounded by the ring. On the default ring and the widest format a quantum beyond 512 frames can be
rejected.
-/

namespace UacDriver

namespace Negotiated

variable (n : Negotiated)

/-- Frames that a completion drains by the packet plan, and by the rate. -/
def drainChunkFrames : Nat := if 0 < n.transferCount then n.exactInitialPacketFrames / n.transferCount else 0

def nominalDrainChunkFrames : Nat :=
  nominalTransferFrames n.sampleRateHz n.playbackPacketsPerTransfer n.microframesPerSec

/-- The automatic target for a clamped quantum `q` and a clamped multiplier `m`. -/
def automaticTarget (q m : Int) : Int :=
  if n.nominalDrainChunkFrames = 0 then min 1024 (q * m) else min 1024 (q + n.nominalDrainChunkFrames)

/-- The automatic headroom for a clamped quantum `q`. -/
def automaticHeadroom (q : Int) : Int :=
  if n.drainChunkFrames = 0 then q else q + max 0 (q - n.drainChunkFrames)

/-- The default ring, formats of at most eight channels of four bytes, and packet plans that fit it. -/
structure DefaultRing (n : Negotiated) : Prop where
  ring : n.ringBytes = kPlaybackRingBytes
  stride : 0 < n.frameStride ∧ n.frameStride ≤ 8 * 4
  plan : n.exactInitialPacketFrames ≤ 2048
  wave : 3 * max 1 n.captureTransferFrames ≤ 2048

variable {n}

theorem DefaultRing.physicalFrames (h : n.DefaultRing) :
    2048 ≤ n.physicalFrames ∧ n.physicalFrames = kPlaybackRingBytes / n.frameStride := by
  have hframes : n.physicalFrames = kPlaybackRingBytes / n.frameStride := by
    rw [Negotiated.physicalFrames, if_pos h.stride.1, h.ring]
  refine ⟨?_, hframes⟩
  rw [hframes, Nat.le_div_iff_mul_le h.stride.1]
  exact (Nat.mul_le_mul_left 2048 h.stride.2).trans (by decide)

theorem requestedPolicy_automatic (frames periodMultiplier : Int) :
    (n.requestedPolicy frames {} periodMultiplier).playbackTargetFrames =
        n.automaticTarget (playbackWatermarkConfig frames periodMultiplier).graphQuantum
          (clampPeriodMultiplier periodMultiplier) ∧
      (n.requestedPolicy frames {} periodMultiplier).writeHeadroomFrames =
        n.automaticHeadroom (playbackWatermarkConfig frames periodMultiplier).graphQuantum := by
  have hquantum := graphQuantum_bounds frames periodMultiplier
  have hmax : kMaxGraphQuantum = 1024 := rfl
  have hint : (kIntMax : Int) = 2147483647 := rfl
  constructor
  · show automaticPlaybackTargetFrames _ n.nominalDrainChunkFrames _ = _
    unfold automaticPlaybackTargetFrames automaticTarget
    by_cases hzero : n.nominalDrainChunkFrames = 0
    · rw [if_pos hzero, if_pos (.inr (by omega))]
      rfl
    · rw [if_neg hzero, if_neg (by omega)]
      split <;> omega
  · show automaticWriteHeadroomFrames _ n.drainChunkFrames = _
    unfold automaticWriteHeadroomFrames automaticHeadroom
    dsimp only
    by_cases hzero : n.drainChunkFrames = 0
    · rw [if_pos hzero, if_pos (by omega)]
      omega
    · rw [if_neg hzero, if_neg (by omega)]
      split <;> split <;> omega

theorem automaticTarget_le (q m : Int) : n.automaticTarget q m ≤ 1024 := by
  unfold automaticTarget
  split <;> omega

/-- The widest quantum needs the most headroom. -/
theorem automaticHeadroom_le {q : Int} (h : q ≤ 1024) : n.automaticHeadroom q ≤ n.automaticHeadroom 1024 := by
  unfold automaticHeadroom
  split <;> omega

/-- The automatic request is accepted exactly when its target and its headroom fit the ring together. -/
theorem DefaultRing.accepts_iff (h : n.DefaultRing) (frames periodMultiplier : Int) :
    (n.resolvePolicy frames {} periodMultiplier).isSome ↔
      n.automaticTarget (playbackWatermarkConfig frames periodMultiplier).graphQuantum
          (clampPeriodMultiplier periodMultiplier) +
        n.automaticHeadroom (playbackWatermarkConfig frames periodMultiplier).graphQuantum ≤ n.physicalFrames := by
  have hquantum := graphQuantum_bounds frames periodMultiplier
  obtain ⟨htarget, hheadroom⟩ := requestedPolicy_automatic (n := n) frames periodMultiplier
  have hroom := h.physicalFrames.1
  have hplan := h.plan
  have hwave := h.wave
  have hprime : (n.requestedPolicy frames {} periodMultiplier).startupPrimeFrames =
      min n.physicalFrames (max n.exactInitialPacketFrames
        (n.requestedPolicy frames {} periodMultiplier).playbackTargetFrames.toNat) := by
    show ((startupPlaybackPrimeFrames _ _ _ : Nat) : Int) = _
    rw [startupPlaybackPrimeFrames, if_neg (by omega)]
    rfl
  have hcapture : (n.requestedPolicy frames {} periodMultiplier).captureTargetFrames = max 1 n.captureTransferFrames ∧
      (n.requestedPolicy frames {} periodMultiplier).captureHeadroomFrames = max 1 n.captureTransferFrames :=
    ⟨rfl, rfl⟩
  have hpositive : 0 ≤ (n.requestedPolicy frames {} periodMultiplier).playbackTargetFrames ∧
      0 ≤ (n.requestedPolicy frames {} periodMultiplier).writeHeadroomFrames := by
    rw [htarget, hheadroom]
    have hmult : 0 ≤ clampPeriodMultiplier periodMultiplier := by
      simp only [clampPeriodMultiplier, kMinPeriodMultiplier]
      omega
    have hproduct := Int.mul_nonneg (show 0 ≤ (playbackWatermarkConfig frames periodMultiplier).graphQuantum by omega) hmult
    unfold automaticTarget automaticHeadroom
    constructor <;> split <;> omega
  rw [isSome_resolvePolicy_iff, admits_iff, hprime, hcapture.1, hcapture.2, ← htarget, ← hheadroom]
  constructor
  · rintro ⟨⟨-, -, hfits⟩, -⟩
    exact hfits
  · intro hfits
    exact ⟨⟨hpositive.1, hpositive.2, hfits⟩, ⟨by omega, by omega⟩, by omega, by omega, by omega⟩

/-- A quantum of at most 512 frames is always accepted. -/
theorem DefaultRing.accepts_of_le (h : n.DefaultRing) {frames : Int} (hle : frames ≤ 512) (periodMultiplier : Int) :
    (n.resolvePolicy frames {} periodMultiplier).isSome := by
  have hquantum : 4 ≤ (playbackWatermarkConfig frames periodMultiplier).graphQuantum ∧
      (playbackWatermarkConfig frames periodMultiplier).graphQuantum ≤ 512 := by
    simp only [playbackWatermarkConfig, kMinGraphQuantum, kMaxGraphQuantum]
    omega
  have hroom := h.physicalFrames.1
  have htarget := automaticTarget_le (n := n) (playbackWatermarkConfig frames periodMultiplier).graphQuantum
    (clampPeriodMultiplier periodMultiplier)
  refine (h.accepts_iff frames periodMultiplier).2 ?_
  unfold automaticHeadroom
  split <;> omega

end Negotiated

/-- A request of zeros on the default ring: the quanta and the packet plans for which it is not rejected, and the
packet plans for which it never is. -/
theorem automatic_policy_accepted_iff {w : Nat} (s : Startup w) (h : s.negotiated.DefaultRing) :
    (∀ frames periodMultiplier, (s.setUserspaceBufferConfig frames {} periodMultiplier).drv.pb.playbackTargetFrames ≠ 0 ↔
      s.negotiated.automaticTarget (max 4 (min frames 1024)) (max 1 (min periodMultiplier 8)) +
        s.negotiated.automaticHeadroom (max 4 (min frames 1024)) ≤ (kPlaybackRingBytes / s.drv.stride : Nat)) ∧
    ((∀ frames periodMultiplier, (s.setUserspaceBufferConfig frames {} periodMultiplier).drv.pb.playbackTargetFrames ≠ 0) ↔
      s.negotiated.drainChunkFrames = 0 ∨
        2048 + (1024 - s.negotiated.drainChunkFrames) ≤ kPlaybackRingBytes / s.drv.stride) := by
  obtain ⟨hroom, hframes⟩ := h.physicalFrames
  have hframes : s.negotiated.physicalFrames = kPlaybackRingBytes / s.drv.stride := hframes
  have hstored (frames periodMultiplier : Int) :
      (s.setUserspaceBufferConfig frames {} periodMultiplier).drv.pb.playbackTargetFrames ≠ 0 ↔
        (s.negotiated.resolvePolicy frames {} periodMultiplier).isSome := by
    unfold Startup.setUserspaceBufferConfig
    cases hres : s.negotiated.resolvePolicy frames {} periodMultiplier with
    | none => exact ⟨fun hne => absurd rfl hne, nofun⟩
    | some p =>
      have hpos := (Negotiated.resolvePolicy_sound hres).2.1
      refine ⟨fun _ => rfl, fun _ => ?_⟩
      show p.playbackTargetFrames.toNat ≠ 0
      omega
  have hone (frames periodMultiplier : Int) := (hstored frames periodMultiplier).trans (h.accepts_iff frames periodMultiplier)
  refine ⟨fun frames periodMultiplier => hframes ▸ hone frames periodMultiplier, ?_⟩
  rw [← hframes]
  constructor
  · intro hall
    have hwidest := (hone 1024 3).1 (hall 1024 3)
    have hquantum : (playbackWatermarkConfig 1024 3).graphQuantum = 1024 := by decide
    have hmult : clampPeriodMultiplier 3 = 3 := by decide
    rw [hquantum, hmult] at hwidest
    unfold Negotiated.automaticTarget Negotiated.automaticHeadroom at hwidest
    split at hwidest <;> split at hwidest <;> omega
  · intro hplan frames periodMultiplier
    refine (hone frames periodMultiplier).2 ?_
    have htarget := Negotiated.automaticTarget_le (n := s.negotiated)
      (playbackWatermarkConfig frames periodMultiplier).graphQuantum (clampPeriodMultiplier periodMultiplier)
    have hheadroom := Negotiated.automaticHeadroom_le (n := s.negotiated)
      (Negotiated.graphQuantum_bounds frames periodMultiplier).2
    have hwidest : s.negotiated.automaticHeadroom 1024 + 1024 ≤ s.negotiated.physicalFrames := by
      unfold Negotiated.automaticHeadroom
      split <;> omega
    omega

/-- Eight channels of four bytes both ways at 48 kHz, behind both pumps. -/
def octoDuplex : Option (Startup 64) :=
  let s := Driver.octoStart kPlaybackRingBytes
  let d : Driver 64 := { s.drv with cap := { s.drv.cap with format := Driver.octoStream } }
  (d.startCapturePump 224 fun _ => true).bind fun d₁ => (d₁.startIsoPump 224 true).map fun drv => { s with drv }

theorem octoDuplex_plan : octoDuplex.map (fun s => (s.drv.pb.ring.size.bytes, s.drv.stride, s.drv.cap.stride,
    s.drv.geometry.exactInitialPacketFrames, s.negotiated.captureTransferFrames, s.negotiated.drainChunkFrames)) =
    some (65536, 32, 32, 192, 56, 48) := by decide

theorem automatic_policy_accepted_iff_octo : ∃ s, octoDuplex = some s ∧
    ¬ ∀ frames periodMultiplier, (s.setUserspaceBufferConfig frames {} periodMultiplier).drv.pb.playbackTargetFrames ≠ 0 := by
  obtain ⟨s, hs, hplan⟩ := Option.map_eq_some_iff.1 octoDuplex_plan
  simp only [Prod.mk.injEq] at hplan
  obtain ⟨hring, hstride, -, hexact, hwave, hdrain⟩ := hplan
  have h : s.negotiated.DefaultRing := by
    refine ⟨hring, ⟨?_, ?_⟩, ?_, ?_⟩
    · show 0 < s.drv.stride
      omega
    · show s.drv.stride ≤ 8 * 4
      omega
    · show s.drv.geometry.exactInitialPacketFrames ≤ 2048
      omega
    · omega
  refine ⟨s, hs, fun hall => ?_⟩
  have hcond := (automatic_policy_accepted_iff s h).2.1 hall
  rw [hdrain, hstride] at hcond
  revert hcond
  decide

/-- A quantum of 1024 frames asks for a target of 1024 and a headroom of 2000 on a ring of 2048. -/
theorem automatic_policy_rejected : ∃ s, octoDuplex = some s ∧ s.drv.pb.ring.size.bytes = kPlaybackRingBytes ∧
    s.drv.geometry.exactInitialPacketFrames ≤ 2048 ∧ 3 * s.negotiated.captureTransferFrames ≤ 2048 ∧
    (s.setUserspaceBufferConfig 1024 {} 3).drv.pb.playbackTargetFrames = 0 := by
  have hrun : octoDuplex.map (fun s => (s.drv.pb.ring.size.bytes, s.drv.geometry.exactInitialPacketFrames,
      s.negotiated.captureTransferFrames, (s.setUserspaceBufferConfig 1024 {} 3).drv.pb.playbackTargetFrames)) =
      some (65536, 192, 56, 0) := by decide
  obtain ⟨s, hs, hplan⟩ := Option.map_eq_some_iff.1 hrun
  simp only [Prod.mk.injEq] at hplan
  obtain ⟨hring, hexact, hwave, htarget⟩ := hplan
  exact ⟨s, hs, hring, by omega, by omega, htarget⟩

end UacDriver

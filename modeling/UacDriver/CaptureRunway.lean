import UacDriver.PolicySound
import Mathlib.Algebra.Order.Floor.Div

/-!
# The playback runway in the capture limit

`captureFrameLimit` is to let capture retain what playback has ahead of it: the target, a quantum and the submitted
transfers. It sizes these transfers by the capture endpoint, so the limit covers the runway exactly when one of its
other terms does, or when a capture transfer is as long as a playback transfer.
-/

namespace UacDriver

open Runs

namespace Startup

variable {w : Nat} (s : Startup w)

/-- Frames of a playback transfer at the nominal rate. -/
def playbackTransferFrames : Nat :=
  nominalTransferFrames s.drv.pb.format.sampleRateHz s.drv.geometry.playbackPacketsPerTransfer s.microframesPerSec

/-- Frames of a capture transfer at the nominal rate. -/
def captureTransferNominal : Nat :=
  nominalTransferFrames s.drv.cap.format.sampleRateHz s.drv.geometry.capturePacketsPerTransfer
    (packetsPerSecondForInterval s.drv.cap.format.isHighSpeed s.drv.cap.format.bInterval)

/-- `queuedCaptureFrames`: a capture transfer in full packets, for each transfer and for two more. -/
def queuedCaptureFrames : Nat :=
  (s.drv.geometry.transferCount + 2) *
    (max 1 s.drv.geometry.capturePacketsPerTransfer * s.drv.geometry.captureMaxFramesPerPacket)

/-- The complete playback runway: the target, a quantum and the submitted transfers. -/
def playbackRunway : Nat :=
  s.drv.pb.playbackTargetFrames + s.drv.geometry.graphQuantum + s.drv.geometry.transferCount * s.playbackTransferFrames

/-- Capture retains the playback runway, as far as the ring holds it. -/
def RetainsRunway : Prop := min (s.drv.cap.ring.size.bytes / s.drv.cap.stride) s.playbackRunway ≤ s.drv.captureFrameLimit

/-- What of the limit covers the submitted playback transfers. -/
def RunwayCovered : Prop :=
  s.drv.geometry.transferCount * s.playbackTransferFrames ≤ s.drv.geometry.transferCount * s.captureTransferNominal ∨
    s.drv.pb.playbackTargetFrames + s.drv.geometry.transferCount * s.playbackTransferFrames ≤
      max s.drv.geometry.graphQuantum s.queuedCaptureFrames

/-- The ring is no longer than one of the terms of the limit. -/
def RingWithinLimit : Prop :=
  s.drv.cap.ring.size.bytes / s.drv.cap.stride ≤
    s.drv.geometry.graphQuantum + max (max s.drv.geometry.graphQuantum s.queuedCaptureFrames)
      (s.drv.pb.playbackTargetFrames + s.drv.geometry.transferCount * s.captureTransferNominal)

end Startup

theorem Startup.retainsRunway_iff {w : Nat} {s : Startup w} (hlimit : s.drv.geometry.captureLimitFrames = 0) :
    s.RetainsRunway ↔ s.RingWithinLimit ∨ s.RunwayCovered := by
  unfold Startup.RetainsRunway Driver.captureFrameLimit
  dsimp only
  by_cases hstride : s.drv.cap.stride = 0
  · rw [if_pos hstride, hstride, Nat.div_zero, Nat.zero_min]
    refine ⟨fun _ => .inl ?_, fun _ => Nat.le_refl _⟩
    rw [Startup.RingWithinLimit, hstride, Nat.div_zero]
    exact Nat.zero_le _
  · rw [if_neg hstride, if_neg (by omega)]
    show min _ _ ≤ min _ (max (s.drv.geometry.graphQuantum * 2)
      (max (s.queuedCaptureFrames + s.drv.geometry.graphQuantum)
        (s.drv.pb.playbackTargetFrames + s.drv.geometry.graphQuantum +
          s.drv.geometry.transferCount * s.captureTransferNominal))) ↔ _
    unfold Startup.RingWithinLimit Startup.RunwayCovered Startup.playbackRunway
    omega

/-- A longer transfer holds more frames: rates being equal, a capture transfer that lasts at least as long as a playback
transfer covers it. -/
theorem nominalTransferFrames_le {rate packets packets' pps pps' : Nat} (hpackets : 0 < packets') (hpps : 0 < pps')
    (h : packets * pps' ≤ packets' * pps) :
    nominalTransferFrames rate packets pps ≤ nominalTransferFrames rate packets' pps' := by
  unfold nominalTransferFrames
  split
  · exact Nat.zero_le _
  · rename_i hpos
    rw [not_or, not_or] at hpos
    obtain ⟨hrate, hpackets₀, hpps₀⟩ := hpos
    rw [if_neg (by omega), ← Nat.ceilDiv_eq_add_pred_div, ← Nat.ceilDiv_eq_add_pred_div]
    refine Nat.le_min.2 ⟨Nat.min_le_left _ _, (Nat.min_le_right _ _).trans ?_⟩
    rw [ceilDiv_le_iff_le_mul (Nat.pos_of_ne_zero hpps₀)]
    refine Nat.le_of_mul_le_mul_right ?_ hpps
    have hround : rate * packets' ≤ pps' * (rate * packets' ⌈/⌉ pps') := (ceilDiv_le_iff_le_mul hpps).1 (Nat.le_refl _)
    calc rate * packets * pps' = rate * (packets * pps') := Nat.mul_assoc _ _ _
      _ ≤ rate * (packets' * pps) := Nat.mul_le_mul_left _ h
      _ = pps * (rate * packets') := by rw [← Nat.mul_assoc, Nat.mul_comm]
      _ ≤ pps * (pps' * (rate * packets' ⌈/⌉ pps')) := Nat.mul_le_mul_left _ hround
      _ = pps * (rate * packets' ⌈/⌉ pps') * pps' := by rw [Nat.mul_comm pps', Nat.mul_assoc]

theorem Startup.runwayCovered_of_longer {w : Nat} {s : Startup w}
    (hrate : s.drv.pb.format.sampleRateHz = s.drv.cap.format.sampleRateHz)
    (hpackets : 0 < s.drv.geometry.capturePacketsPerTransfer)
    (h : s.drv.geometry.playbackPacketsPerTransfer *
        packetsPerSecondForInterval s.drv.cap.format.isHighSpeed s.drv.cap.format.bInterval ≤
      s.drv.geometry.capturePacketsPerTransfer * s.microframesPerSec) : s.RunwayCovered := by
  have hpps : 0 < packetsPerSecondForInterval s.drv.cap.format.isHighSpeed s.drv.cap.format.bInterval :=
    Nat.lt_of_lt_of_le Nat.zero_lt_one (Nat.le_max_left _ _)
  refine .inl (Nat.mul_le_mul_left _ ?_)
  rw [playbackTransferFrames, captureTransferNominal, hrate]
  exact nominalTransferFrames_le hpackets hpps h

/-- Without an explicit limit, capture retains the playback runway exactly when the ring or the limit covers it; in
particular when both endpoints run at one rate and a capture transfer lasts at least as long as a playback transfer. -/
theorem capture_retains_runway_iff {w : Nat} (s : Startup w) (hlimit : s.drv.geometry.captureLimitFrames = 0) :
    (s.RetainsRunway ↔ s.RingWithinLimit ∨ s.RunwayCovered) ∧
      (s.drv.pb.format.sampleRateHz = s.drv.cap.format.sampleRateHz → 0 < s.drv.geometry.capturePacketsPerTransfer →
        s.drv.geometry.playbackPacketsPerTransfer *
            packetsPerSecondForInterval s.drv.cap.format.isHighSpeed s.drv.cap.format.bInterval ≤
          s.drv.geometry.capturePacketsPerTransfer * s.microframesPerSec → s.RetainsRunway) :=
  ⟨Startup.retainsRunway_iff hlimit, fun hrate hpackets hlonger =>
    (Startup.retainsRunway_iff hlimit).2 (.inr (Startup.runwayCovered_of_longer hrate hpackets hlonger))⟩

/-- Stereo at 48 kHz: a playback packet every two milliseconds, a capture packet every microframe. -/
def unequalIntervals : Option (Startup 64) :=
  let playback : StreamFormat := { sampleRateHz := 48000, bytesPerSample := 2, channels := 2, bInterval := 5 }
  let s := run Startup.step (Startup.constructed defaultRing) [.configureUserspaceBuffers {}, .start playback]
  let d : Driver 64 := { s.drv with cap := { s.drv.cap with format := { playback with bInterval := 1 } } }
  (d.startCapturePump 28 fun _ => true).bind fun d₁ => (d₁.startIsoPump 388 true).map fun drv =>
    Startup.setUserspaceBufferConfig { s with drv, microframesPerSec := playback.microframesPerSec } 64 {} 3

theorem unequalIntervals_values : ∃ s, unequalIntervals = some s ∧ s.drv.geometry.captureLimitFrames = 0 ∧
    s.drv.captureFrameLimit = 416 ∧ s.drv.cap.ring.size.bytes / s.drv.cap.stride = 16384 ∧ s.playbackRunway = 608 := by
  have hrun : unequalIntervals.map (fun s => (s.drv.geometry.captureLimitFrames, s.drv.captureFrameLimit,
      s.drv.cap.ring.size.bytes / s.drv.cap.stride, s.playbackRunway)) = some (0, 416, 16384, 608) := by decide
  obtain ⟨s, hs, hvalues⟩ := Option.map_eq_some_iff.1 hrun
  simp only [Prod.mk.injEq] at hvalues
  exact ⟨s, hs, hvalues⟩

theorem capture_retains_runway_iff_unequal : ∃ s, unequalIntervals = some s ∧ ¬ s.RunwayCovered := by
  obtain ⟨s, hs, hlimit, hframes, hring, hrunway⟩ := unequalIntervals_values
  refine ⟨s, hs, fun hcovered => ?_⟩
  have hretains := (capture_retains_runway_iff s hlimit).1.2 (.inr hcovered)
  rw [Startup.RetainsRunway, hframes, hring, hrunway] at hretains
  revert hretains
  decide

/-- A runway of 608 frames, and a limit of 416 on a ring of 16384. -/
theorem capture_drops_runway : ∃ s, unequalIntervals = some s ∧ s.drv.geometry.captureLimitFrames = 0 ∧
    s.drv.captureFrameLimit < min (s.drv.cap.ring.size.bytes / s.drv.cap.stride) s.playbackRunway := by
  obtain ⟨s, hs, hlimit, hframes, hring, hrunway⟩ := unequalIntervals_values
  refine ⟨s, hs, hlimit, ?_⟩
  rw [hframes, hring, hrunway]
  decide

end UacDriver

import UacDriver.PolicySound

/-!
# The capture budget

The notes ask that the graph quantum, the capture target and the capture headroom fit the capture ring. The resolver
checks another sum against another ring: one capture wave and the two terms against the frames of the playback ring.
Every request that a driver accepts therefore keeps the budget of the notes only if the capture ring holds a whole
playback ring and what the longest quantum is longer than a wave.
-/

namespace UacDriver

open Runs

namespace Startup

variable {w : Nat} (s : Startup w)

/-- The frames that the capture ring holds. -/
def captureFrames : Nat := s.drv.cap.ring.size.bytes / s.drv.cap.stride

/-- `captureWave`: one completion of the capture endpoint. -/
def captureWave : Nat := max 1 s.negotiated.captureTransferFrames

/-- The budget of the notes, on the stored terms. -/
def CaptureBudget : Prop :=
  s.drv.geometry.graphQuantum + s.captureTargetFrames + s.captureHeadroomFrames ≤ s.captureFrames

/-- Some request can be accepted: the ring holds a frame of target and one of headroom, the initial packets, and a
capture wave. -/
def AcceptsSome : Prop :=
  2 ≤ s.negotiated.physicalFrames ∧ s.negotiated.exactInitialPacketFrames ≤ s.negotiated.physicalFrames ∧
    s.captureWave ≤ s.negotiated.physicalFrames

variable {s} {frames periodMultiplier : Int} {c : UserspaceBufferConfig}

/-- The sum that the resolver does check. -/
theorem captureTerms_le (h : (s.negotiated.resolvePolicy frames c periodMultiplier).isSome) :
    (s.captureWave : Int) + resolveOptionalFrames c.captureTargetFrames s.captureWave +
      resolveOptionalFrames c.captureHeadroomFrames s.captureWave ≤ s.negotiated.physicalFrames := by
  obtain ⟨-, -, -, -, hsum⟩ := Negotiated.admits_iff.1 (Negotiated.isSome_resolvePolicy_iff.1 h)
  exact hsum

/-- The budget of an accepted request, on the terms that it resolves to. -/
theorem captureBudget_iff (h : (s.negotiated.resolvePolicy frames c periodMultiplier).isSome) :
    (s.setUserspaceBufferConfig frames c periodMultiplier).CaptureBudget ↔
      (playbackWatermarkConfig frames periodMultiplier).graphQuantum +
        resolveOptionalFrames c.captureTargetFrames s.captureWave +
        resolveOptionalFrames c.captureHeadroomFrames s.captureWave ≤ s.captureFrames := by
  obtain ⟨p, hp⟩ := Option.isSome_iff_exists.1 h
  obtain ⟨rfl, -⟩ := Negotiated.resolvePolicy_sound hp
  have hquantum := (Negotiated.graphQuantum_bounds frames periodMultiplier).1
  have hstored : s.setUserspaceBufferConfig frames c periodMultiplier =
      s.storePolicy (s.negotiated.requestedPolicy frames c periodMultiplier) := by
    rw [setUserspaceBufferConfig, hp]
  rw [hstored, CaptureBudget]
  show (((playbackWatermarkConfig frames periodMultiplier).graphQuantum.toNat : Nat) : Int) +
    resolveOptionalFrames c.captureTargetFrames s.captureWave +
    resolveOptionalFrames c.captureHeadroomFrames s.captureWave ≤ (s.captureFrames : Int) ↔ _
  omega

/-- The request that uses all of what the check allows beside a capture wave. -/
def wholeBudget (s : Startup w) : UserspaceBufferConfig where
  playbackTargetFrames := 1
  writeHeadroomFrames := 1
  captureTargetFrames := kExplicitZeroFrames
  captureHeadroomFrames :=
    if s.negotiated.physicalFrames = s.captureWave then kExplicitZeroFrames
    else s.negotiated.physicalFrames - s.captureWave

theorem wholeBudget_spare (h : s.AcceptsSome) :
    resolveOptionalFrames s.wholeBudget.captureTargetFrames s.captureWave = 0 ∧
      resolveOptionalFrames s.wholeBudget.captureHeadroomFrames s.captureWave =
        s.negotiated.physicalFrames - s.captureWave := by
  obtain ⟨-, -, hwave⟩ := h
  refine ⟨rfl, ?_⟩
  unfold wholeBudget resolveOptionalFrames
  dsimp only
  by_cases heq : s.negotiated.physicalFrames = s.captureWave
  · rw [if_pos heq, if_pos rfl, heq, Int.sub_self]
  · rw [if_neg heq, if_neg, if_neg]
    · omega
    · simp only [kExplicitZeroFrames]
      omega

theorem wholeBudget_accepted (h : s.AcceptsSome) :
    (s.negotiated.resolvePolicy kMaxGraphQuantum s.wholeBudget kDefaultPeriodMultiplier).isSome := by
  obtain ⟨htarget, hheadroom⟩ := wholeBudget_spare h
  obtain ⟨htwo, hexact, hwave⟩ := h
  have hprime : (s.negotiated.requestedPolicy kMaxGraphQuantum s.wholeBudget kDefaultPeriodMultiplier).startupPrimeFrames =
      min s.negotiated.physicalFrames (max s.negotiated.exactInitialPacketFrames 1) := by
    show ((startupPlaybackPrimeFrames _ _ _ : Nat) : Int) = _
    rw [startupPlaybackPrimeFrames, if_neg (by omega)]
    rfl
  refine Negotiated.isSome_resolvePolicy_iff.2 (Negotiated.admits_iff.2 ⟨⟨?_, ?_, ?_⟩, ⟨?_, ?_⟩, ?_, ?_, ?_⟩)
  · show (0 : Int) ≤ 1
    decide
  · show (0 : Int) ≤ 1
    decide
  · show (1 : Int) + 1 ≤ _
    omega
  · rw [hprime]
    omega
  · rw [hprime]
    omega
  · show 0 ≤ resolveOptionalFrames s.wholeBudget.captureTargetFrames s.captureWave
    omega
  · show 0 ≤ resolveOptionalFrames s.wholeBudget.captureHeadroomFrames s.captureWave
    omega
  · show (s.captureWave : Int) + resolveOptionalFrames s.wholeBudget.captureTargetFrames s.captureWave +
      resolveOptionalFrames s.wholeBudget.captureHeadroomFrames s.captureWave ≤ _
    omega

theorem acceptsSome_of_accepted (h : (s.negotiated.resolvePolicy frames c periodMultiplier).isSome) : s.AcceptsSome := by
  obtain ⟨⟨htarget, hheadroom, hbudget⟩, ⟨hexact, hprime⟩, hct, hch, hsum⟩ :=
    Negotiated.admits_iff.1 (Negotiated.isSome_resolvePolicy_iff.1 h)
  have htarget := Negotiated.requestedTarget_pos htarget
  have hheadroom := Negotiated.requestedHeadroom_pos hheadroom
  have hsum : (s.captureWave : Int) + _ + _ ≤ s.negotiated.physicalFrames := hsum
  exact ⟨by omega, by omega, by omega⟩

/-- The budget of the notes: for one accepted request it is that of the terms it resolves to, and for all that a driver
accepts it comes down to the two rings and the capture wave. -/
theorem capture_budget_iff {w : Nat} (s : Startup w) :
    (∀ frames c periodMultiplier, (s.negotiated.resolvePolicy frames c periodMultiplier).isSome →
      ((s.setUserspaceBufferConfig frames c periodMultiplier).CaptureBudget ↔
        (playbackWatermarkConfig frames periodMultiplier).graphQuantum +
          resolveOptionalFrames c.captureTargetFrames s.captureWave +
          resolveOptionalFrames c.captureHeadroomFrames s.captureWave ≤ s.captureFrames)) ∧
    ((∀ frames c periodMultiplier, (s.negotiated.resolvePolicy frames c periodMultiplier).isSome →
        (s.setUserspaceBufferConfig frames c periodMultiplier).CaptureBudget) ↔
      (s.AcceptsSome → kMaxGraphQuantum - s.captureWave + s.negotiated.physicalFrames ≤ s.captureFrames)) := by
  refine ⟨fun _ _ _ h => captureBudget_iff h, fun hall hsome => ?_, fun hstate frames c periodMultiplier h => ?_⟩
  · obtain ⟨htarget, hheadroom⟩ := wholeBudget_spare hsome
    have haccepted := wholeBudget_accepted hsome
    have hbudget := (captureBudget_iff haccepted).1 (hall _ _ _ haccepted)
    have hquantum : (playbackWatermarkConfig kMaxGraphQuantum kDefaultPeriodMultiplier).graphQuantum =
      kMaxGraphQuantum := by decide
    rw [hquantum, htarget, hheadroom] at hbudget
    omega
  · have hterms := captureTerms_le h
    have hquantum := (Negotiated.graphQuantum_bounds frames periodMultiplier).2
    have hle := hstate (acceptsSome_of_accepted h)
    refine (captureBudget_iff h).2 ?_
    simp only [kMaxGraphQuantum] at hle
    omega

/-- Stereo playback and eight channels of capture on the default rings. -/
def wideCapture : Startup 64 :=
  run Startup.step (constructed defaultRing)
    [.configureUserspaceBuffers {}, .start { sampleRateHz := 48000, bytesPerSample := 2, channels := 2 },
      .capture { ring := (constructed defaultRing).drv.cap.ring, format := Driver.octoStream } {}]

/-- A target of 400 frames is accepted, and fits the capture ring. -/
theorem capture_budget_kept :
    (wideCapture.negotiated.resolvePolicy 64 { captureTargetFrames := 400 } 3).isSome ∧
      (wideCapture.setUserspaceBufferConfig 64 { captureTargetFrames := 400 } 3).CaptureBudget := by
  have haccepted : (wideCapture.negotiated.resolvePolicy 64 { captureTargetFrames := 400 } 3).isSome := by decide
  refine ⟨haccepted, ((capture_budget_iff wideCapture).1 64 { captureTargetFrames := 400 } 3 haccepted).2 ?_⟩
  decide

/-- A target of 4000 frames is accepted for a capture ring of 2048. -/
theorem capture_budget_exceeded :
    (wideCapture.negotiated.resolvePolicy 64 { captureTargetFrames := 4000 } 3).isSome ∧
      wideCapture.captureFrames = 2048 ∧
      ¬ (wideCapture.setUserspaceBufferConfig 64 { captureTargetFrames := 4000 } 3).CaptureBudget := by
  refine ⟨by decide, by decide, ?_⟩
  unfold CaptureBudget
  decide

end Startup

end UacDriver

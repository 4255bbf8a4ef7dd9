import UacDriver.PolicyArith
import UacDriver.PrimeReach

/-!
# What an accepted policy promises

`setUserspaceBufferConfig` on any request and any negotiated state: a rejected request leaves zeros and the old
quantum, an accepted one terms within the ring and the explicit terms as they were asked for. An accepted policy can be
started: the producer brings an empty ring up to the prime, and `startPlayback` then goes through.
-/

namespace UacDriver

open Runs

/-! ### Negotiated formats -/

/-- A walk over the descriptors of an alternate setting only ever stores bytes. -/
theorem AltScan.descriptor_bytes {uacVersion : Nat} {sampleRateHz : Int} {s : AltScan}
    (h : s.altChannels ≤ 255 ∧ s.altBits ≤ 255 ∧ s.altSubslot ≤ 255) (d : Descriptor) :
    (s.descriptor uacVersion sampleRateHz d).altChannels ≤ 255 ∧ (s.descriptor uacVersion sampleRateHz d).altBits ≤ 255 ∧
      (s.descriptor uacVersion sampleRateHz d).altSubslot ≤ 255 := by
  have hbyte (k : Nat) : d.byte k ≤ 255 := Nat.le_of_lt_succ (d.byte_lt k)
  obtain ⟨hchannels, hbits, hsubslot⟩ := h
  unfold AltScan.descriptor
  split
  · split
    · exact ⟨hbyte 10, hbits, hsubslot⟩
    · exact ⟨hchannels, hbits, hsubslot⟩
  · split
    · split
      · split
        · exact ⟨hchannels, hbyte 5, hbyte 4⟩
        · exact ⟨hchannels, hbits, hsubslot⟩
      · split
        · exact ⟨hbyte 4, hbyte 6, hbyte 5⟩
        · exact ⟨hchannels, hbits, hsubslot⟩
    · exact ⟨hchannels, hbits, hsubslot⟩

theorem InterfaceDescriptor.scanAlt_bytes (alt : InterfaceDescriptor) (uacVersion : Nat) (sampleRateHz : Int) :
    (alt.scanAlt uacVersion sampleRateHz).altChannels ≤ 255 ∧ (alt.scanAlt uacVersion sampleRateHz).altBits ≤ 255 ∧
      (alt.scanAlt uacVersion sampleRateHz).altSubslot ≤ 255 :=
  run_invariant (I := fun s : AltScan => s.altChannels ≤ 255 ∧ s.altBits ≤ 255 ∧ s.altSubslot ≤ 255)
    (fun _ d h => AltScan.descriptor_bytes h d) ⟨Nat.zero_le _, Nat.zero_le _, Nat.zero_le _⟩ _

/-- The channels and the sample size of a negotiated format are descriptor bytes. -/
theorem NegotiatesPlayback.bytes {req : StreamRequest} {f : StreamFormat} (h : NegotiatesPlayback req f) :
    f.channels ≤ 255 ∧ f.bytesPerSample ≤ 255 := by
  cases h with
  | generic config isHs h =>
    unfold selectAltSetting at h
    split at h
    · cases h
    split at h
    · cases h
    rename_i t _
    obtain ⟨alt, s, iso, hadmits, rfl⟩ := Topology.select_ok h
    unfold InterfaceDescriptor.admits at hadmits
    obtain ⟨-, hadmits⟩ := Option.ite_none_left_eq_some.1 hadmits
    obtain ⟨-, hadmits⟩ := Option.ite_none_left_eq_some.1 hadmits
    obtain ⟨hasked, hadmits⟩ := Option.ite_none_left_eq_some.1 hadmits
    obtain ⟨-, hadmits⟩ := Option.ite_none_left_eq_some.1 hadmits
    obtain ⟨_, -, he⟩ := Option.map_eq_some_iff.1 hadmits
    cases he
    obtain ⟨hchannels, hbits, hsubslot⟩ := alt.scanAlt_bytes t.uacVersion req.sampleRateHz
    rw [not_or, not_not, not_not] at hasked
    constructor
    · show req.channels.toNat ≤ 255
      omega
    · show (if _ then _ else _ : Nat) ≤ 255
      split
      · exact hsubslot
      · have hle : req.bitsPerSample.tdiv 8 ≤ req.bitsPerSample := Int.tdiv_le_self _ (by omega)
        exact Int.toNat_le.2 (by omega)
  | line6 config isHs capture hreq h =>
    obtain ⟨⟨chosen, outEp, inEp⟩, -, he⟩ := Option.map_eq_some_iff.1 h
    cases he
    constructor
    · show 2 ≤ 255
      decide
    · show 2 ≤ 255
      decide

/-! ### The resolver -/

namespace Negotiated

variable {n : Negotiated} {frames periodMultiplier : Int} {c : UserspaceBufferConfig} {p : BufferPolicy}

/-- A target that is not negative is none of zero: zero asks for the automatic one. -/
theorem requestedTarget_pos (h : 0 ≤ (n.requestedPolicy frames c periodMultiplier).playbackTargetFrames) :
    0 < (n.requestedPolicy frames c periodMultiplier).playbackTargetFrames := by
  have hauto := automaticPlaybackTargetFrames_bounds
    (nominalTransferFrames n.sampleRateHz n.playbackPacketsPerTransfer n.microframesPerSec)
    (graphQuantum_bounds frames periodMultiplier).1 (targetFrames_bounds frames periodMultiplier)
  unfold requestedPolicy at h ⊢
  dsimp only at h ⊢
  split at h <;> omega

theorem requestedHeadroom_pos (h : 0 ≤ (n.requestedPolicy frames c periodMultiplier).writeHeadroomFrames) :
    0 < (n.requestedPolicy frames c periodMultiplier).writeHeadroomFrames := by
  have hquantum := graphQuantum_bounds frames periodMultiplier
  have hauto := automaticWriteHeadroomFrames_bounds
    (if 0 < n.transferCount then n.exactInitialPacketFrames / n.transferCount else 0 : Nat) hquantum.2
  unfold requestedPolicy at h ⊢
  dsimp only at h ⊢
  split at h <;> omega

theorem checkedFrameBudgetFits_iff {first second third capacity : Int} :
    checkedFrameBudgetFits first second third capacity = true ↔
      0 ≤ first ∧ 0 ≤ second ∧ 0 ≤ third ∧ first + second + third ≤ capacity := by
  unfold checkedFrameBudgetFits
  split
  · simp only [Bool.false_eq_true, false_iff]
    omega
  · simp only [decide_eq_true_eq]
    omega

/-- The inequalities of `valid`. -/
theorem admits_iff : n.admits p = true ↔
    (0 ≤ p.playbackTargetFrames ∧ 0 ≤ p.writeHeadroomFrames ∧
      p.playbackTargetFrames + p.writeHeadroomFrames ≤ n.physicalFrames) ∧
    ((n.exactInitialPacketFrames : Int) ≤ p.startupPrimeFrames ∧ p.startupPrimeFrames ≤ n.physicalFrames) ∧
    0 ≤ p.captureTargetFrames ∧ 0 ≤ p.captureHeadroomFrames ∧
      (max 1 n.captureTransferFrames : Nat) + p.captureTargetFrames + p.captureHeadroomFrames ≤ n.physicalFrames := by
  unfold admits
  rw [Bool.and_eq_true, Bool.and_eq_true, Bool.and_eq_true, checkedFrameBudgetFits_iff, checkedFrameBudgetFits_iff,
    decide_eq_true_eq, decide_eq_true_eq]
  omega

theorem resolvePolicy_eq_some_iff : n.resolvePolicy frames c periodMultiplier = some p ↔
    p = n.requestedPolicy frames c periodMultiplier ∧ n.admits p = true := by
  unfold resolvePolicy
  dsimp only
  rw [Option.ite_none_right_eq_some]
  constructor
  · rintro ⟨hvalid, he⟩
    cases he
    exact ⟨rfl, hvalid⟩
  · rintro ⟨rfl, hvalid⟩
    exact ⟨hvalid, rfl⟩

theorem isSome_resolvePolicy_iff : (n.resolvePolicy frames c periodMultiplier).isSome ↔
    n.admits (n.requestedPolicy frames c periodMultiplier) = true := by
  rw [Option.isSome_iff_exists]
  simp only [resolvePolicy_eq_some_iff, exists_eq_left]

/-- An accepted policy is the requested one, and its playback terms fit the ring. -/
theorem resolvePolicy_sound (h : n.resolvePolicy frames c periodMultiplier = some p) :
    p = n.requestedPolicy frames c periodMultiplier ∧ 0 < p.playbackTargetFrames ∧ 0 ≤ p.writeHeadroomFrames ∧
      p.playbackTargetFrames + p.writeHeadroomFrames ≤ n.physicalFrames ∧
      (n.exactInitialPacketFrames : Int) ≤ p.startupPrimeFrames ∧ p.startupPrimeFrames ≤ n.physicalFrames := by
  obtain ⟨rfl, hvalid⟩ := resolvePolicy_eq_some_iff.1 h
  obtain ⟨⟨htarget, hheadroom, hbudget⟩, hprime, -⟩ := admits_iff.1 hvalid
  exact ⟨rfl, requestedTarget_pos htarget, hheadroom, hbudget, hprime⟩

end Negotiated

/-! ### Starting with it -/

namespace Driver

variable {w : Nat} {d : Driver w}

/-- The prime can be written into an empty ring, and playback then starts if the host takes every submit. -/
def PrimesAndStarts (d : Driver w) : Prop :=
  ∀ r : Ring w, r.size = d.pb.ring.size → r.used = 0 → ∀ calls : List (List UInt8 × Int), (∀ c ∈ calls, 0 < c.2) →
    d.pb.startupPrimeFrames ≤ (calls.map fun c => c.2.toNat).sum →
    let e := { d with pb := Playback.writeCalls { d.pb with ring := r, playbackStarted := false } calls }
    e.pb.startupPrimeFrames ≤ e.pb.bufferedFrames ∧ (e.stopRequested = false → (e.startPlayback fun _ => true).isSome)

theorem writeCalls_sides (calls : List (List UInt8 × Int)) (p : Playback w) :
    (p.writeCalls calls).primeSide = p.primeSide ∧ (p.writeCalls calls).eventSide = p.eventSide :=
  run_invariant (I := fun p' : Playback w => p'.primeSide = p.primeSide ∧ p'.eventSide = p.eventSide)
    (fun _ c h => ⟨(Playback.writePcm_primeSide c.1 c.2).trans h.1, (Playback.writePcm_eventSide c.1 c.2).trans h.2⟩)
    ⟨rfl, rfl⟩ calls

theorem primesAndStarts_of_fits (hstride : 0 < d.stride)
    (hfits : d.pb.startupPrimeFrames ≤ d.pb.ring.size.bytes / d.stride) : d.PrimesAndStarts := by
  intro r hsize hempty calls hcalls hoffered e
  obtain ⟨hprime, hevent⟩ := writeCalls_sides calls { d.pb with ring := r, playbackStarted := false }
  have hfilled := ((Playback.primeReachable_iff hstride).2 hfits).filled r hsize hempty calls hcalls hoffered
  have hsame : e.pb.startupPrimeFrames = d.pb.startupPrimeFrames := congrArg Prod.snd hprime
  have hstride' : e.stride = d.stride := congrArg Prod.fst hprime
  refine ⟨by rw [hsame]; exact hfilled, fun hstopped => Startup.startPlayback_isSome ?_ ?_ ?_ hstopped⟩
  · rw [hstride']
    exact Nat.ne_of_gt hstride
  · rw [hsame]
    exact hfilled
  · exact congrArg (fun s => s.2.2) hevent

end Driver

/-! ### A request to a driver -/

namespace Startup

variable {w : Nat}

/-- The fields are values of their types; the format comes from descriptor bytes (`NegotiatesPlayback.bytes`). -/
structure InRange (s : Startup w) : Prop where
  channels : s.drv.pb.format.channels ≤ 255
  bytesPerSample : s.drv.pb.format.bytesPerSample ≤ 255
  negotiated : s.negotiated.InRange

/-- `setUserspaceBufferConfig` with every signed operation checked, from the frame stride on. -/
def resolvePolicyChecked (s : Startup w) (frames : Int) (c : UserspaceBufferConfig) (periodMultiplier : Int) :
    Option (Option BufferPolicy) := do
  let stride ← checkedInt (s.drv.pb.format.channels * s.drv.pb.format.bytesPerSample)
  { s.negotiated with frameStride := stride.toNat }.resolvePolicyChecked frames c periodMultiplier

theorem resolvePolicyChecked_eq {s : Startup w} (hs : s.InRange) {c : UserspaceBufferConfig} (hc : c.InRange)
    (frames periodMultiplier : Int) :
    s.resolvePolicyChecked frames c periodMultiplier =
      some (s.negotiated.resolvePolicy frames c periodMultiplier) := by
  have hproduct : s.drv.pb.format.channels * s.drv.pb.format.bytesPerSample ≤ 255 * 255 :=
    Nat.mul_le_mul hs.channels hs.bytesPerSample
  unfold resolvePolicyChecked
  rw [← Int.natCast_mul, checkedInt_eq ⟨by omega, by omega⟩, Option.bind_eq_bind, Option.bind_some]
  exact Negotiated.resolvePolicyChecked_eq hs.negotiated hc frames periodMultiplier

end Startup

/-- Playback policy resolution: nothing overflows, a rejected request leaves zeros and the old quantum, an accepted one
fits the ring, keeps what was asked for, and can be primed and started. -/
theorem playback_policy_sound {w : Nat} (s : Startup w) (frames : Int) (c : UserspaceBufferConfig)
    (periodMultiplier : Int) (hs : s.InRange) (hc : c.InRange) :
    let s' := s.setUserspaceBufferConfig frames c periodMultiplier
    let F := s.drv.pb.ring.size.bytes / s.drv.stride
    s.resolvePolicyChecked frames c periodMultiplier = some (s.negotiated.resolvePolicy frames c periodMultiplier) ∧
    ((s'.drv.pb.playbackTargetFrames = 0 ∧ s'.drv.pb.startupPrimeFrames = 0 ∧ s'.drv.pb.writeHeadroomFrames = 0 ∧
        s'.drv.geometry.captureLimitFrames = 0 ∧ s'.captureTargetFrames = 0 ∧ s'.captureHeadroomFrames = 0 ∧
        s'.captureDeadlineSlackFrames = 0 ∧ s'.drv.geometry.graphQuantum = s.drv.geometry.graphQuantum) ∨
      (s'.drv.pb.playbackTargetFrames + s'.drv.pb.writeHeadroomFrames ≤ F ∧
        s.drv.geometry.exactInitialPacketFrames ≤ s'.drv.pb.startupPrimeFrames ∧ s'.drv.pb.startupPrimeFrames ≤ F ∧
        (0 < c.playbackTargetFrames → (s'.drv.pb.playbackTargetFrames : Int) = c.playbackTargetFrames) ∧
        (0 < c.startupPrimeFrames → (s'.drv.pb.startupPrimeFrames : Int) = c.startupPrimeFrames) ∧
        (0 < c.writeHeadroomFrames → (s'.drv.pb.writeHeadroomFrames : Int) = c.writeHeadroomFrames) ∧
        s'.drv.PrimesAndStarts)) := by
  intro s' F
  refine ⟨Startup.resolvePolicyChecked_eq hs hc frames periodMultiplier, ?_⟩
  cases hres : s.negotiated.resolvePolicy frames c periodMultiplier with
  | none =>
    have he : s' = s.rejectPolicy := by
      show s.setUserspaceBufferConfig frames c periodMultiplier = _
      rw [Startup.setUserspaceBufferConfig, hres]
    rw [he]
    exact .inl ⟨rfl, rfl, rfl, rfl, rfl, rfl, rfl, Int.toNat_natCast _⟩
  | some p =>
    obtain ⟨hp, htarget, hheadroom, hbudget, hexact, hprime⟩ := Negotiated.resolvePolicy_sound hres
    have he : s' = s.storePolicy p := by
      show s.setUserspaceBufferConfig frames c periodMultiplier = _
      rw [Startup.setUserspaceBufferConfig, hres]
    have hstride : 0 < s.drv.stride := by
      by_contra hzero
      have hnone : s.negotiated.physicalFrames = 0 := if_neg hzero
      omega
    have hphysical : s.negotiated.physicalFrames = F := if_pos hstride
    have hexact : (s.drv.geometry.exactInitialPacketFrames : Int) ≤ p.startupPrimeFrames := hexact
    rw [hphysical] at hbudget hprime
    rw [he]
    right
    refine ⟨?_, ?_, ?_, ?_, ?_, ?_, Driver.primesAndStarts_of_fits hstride ?_⟩
    · show p.playbackTargetFrames.toNat + p.writeHeadroomFrames.toNat ≤ F
      omega
    · show s.drv.geometry.exactInitialPacketFrames ≤ p.startupPrimeFrames.toNat
      omega
    · show p.startupPrimeFrames.toNat ≤ F
      omega
    · intro hpos
      have hterm : p.playbackTargetFrames = c.playbackTargetFrames := by
        rw [hp]
        exact if_neg (Int.ne_of_gt hpos)
      show (p.playbackTargetFrames.toNat : Int) = _
      omega
    · intro hpos
      have hterm : p.startupPrimeFrames = c.startupPrimeFrames := by
        rw [hp]
        exact if_neg (Int.ne_of_gt hpos)
      show (p.startupPrimeFrames.toNat : Int) = _
      omega
    · intro hpos
      have hterm : p.writeHeadroomFrames = c.writeHeadroomFrames := by
        rw [hp]
        exact if_neg (Int.ne_of_gt hpos)
      show (p.writeHeadroomFrames.toNat : Int) = _
      omega
    · show p.startupPrimeFrames.toNat ≤ s.drv.pb.ring.size.bytes / s.drv.stride
      exact Int.toNat_le.2 hprime

/-- The eight-channel stream on the default ring, with a target and a headroom of its own: both are kept, and the prime
they come to can be written and started. -/
theorem playback_policy_sound_octo :
    let s := Driver.octoStart 65536
    let c : UserspaceBufferConfig := { playbackTargetFrames := 256, writeHeadroomFrames := 128 }
    let s' := s.setUserspaceBufferConfig 64 c 3
    s.resolvePolicyChecked 64 c 3 = some (s.negotiated.resolvePolicy 64 c 3) ∧
      s'.drv.pb.playbackTargetFrames = 256 ∧ s'.drv.pb.writeHeadroomFrames = 128 ∧
      s.drv.geometry.exactInitialPacketFrames ≤ s'.drv.pb.startupPrimeFrames ∧ s'.drv.pb.startupPrimeFrames ≤ 2048 ∧
      s'.drv.PrimesAndStarts := by
  obtain ⟨hchecked, hresolved⟩ := playback_policy_sound (Driver.octoStart 65536) 64
    { playbackTargetFrames := 256, writeHeadroomFrames := 128 } 3
    ⟨by decide, by decide, by decide, by decide, by decide, by decide, by decide, by decide⟩
    ⟨⟨by decide, by decide⟩, ⟨by decide, by decide⟩, ⟨by decide, by decide⟩, ⟨by decide, by decide⟩⟩
  rcases hresolved with ⟨hnone, -⟩ | ⟨-, hexact, hprime, htarget, -, hheadroom, hstarts⟩
  · exact absurd hnone (by decide)
  · exact ⟨hchecked, Int.ofNat_inj.1 (htarget (by decide)), Int.ofNat_inj.1 (hheadroom (by decide)), hexact,
      hprime.trans (by decide), hstarts⟩

end UacDriver

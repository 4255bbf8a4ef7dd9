import UacDriver.StartupPrime

/-!
# Reaching the startup prime

Before playback starts only `writePcm` moves the ring, and it admits what the ring and the frame limit leave. Calls on
an empty ring therefore add up to the frames offered, capped by the ring and by the limit; the limit is the prime and
the headroom, so the prime is reached as soon as it fits the ring. `startIsoPump` bounds the prime by `kRingBytes`, the
size of the default ring, and not by the ring that is installed. `PrimeFits` is what then decides.
-/

namespace UacDriver

open Runs

namespace Playback

variable {w : Nat} {p : Playback w}

/-- The frames that the ring can ever hold before playback starts. -/
def capacityFrames (p : Playback w) : Nat := min (p.ring.size.bytes / p.stride) p.frameLimit

theorem capacityFrames_congr {p' : Playback w} (hsize : p'.ring.size = p.ring.size) (hstride : p'.stride = p.stride)
    (hlimit : p'.frameLimit = p.frameLimit) : p'.capacityFrames = p.capacityFrames := by
  rw [capacityFrames, hsize, hstride, hlimit, capacityFrames]

/-- The frames that a ring of `q` whole frames leaves. -/
theorem admissible_of_whole {q : Nat} (hstride : 0 < p.stride) (hused : p.ring.used = q * p.stride) :
    p.admissible = p.capacityFrames - q := by
  have hqueued : p.ring.used / p.stride = q := by rw [hused, Nat.mul_div_cancel _ hstride]
  have hphysical : (p.ring.size.bytes - p.ring.used) / p.stride = p.ring.size.bytes / p.stride - q := by
    rw [hused, Nat.mul_comm, Nat.sub_mul_div]
  unfold admissible capacityFrames
  rw [hqueued, hphysical]
  dsimp only
  split <;> omega

/-- What a call leaves of the terms of the capacity, and what it adds to the ring. -/
theorem writePcm_whole {q : Nat} (hstride : 0 < p.stride) (hused : p.ring.used = q * p.stride) (hq : q ≤ p.capacityFrames)
    (data : List UInt8) {frames : Int} (hframes : 0 < frames) :
    let p' := (p.writePcm data frames).1
    p'.stride = p.stride ∧ p'.capacityFrames = p.capacityFrames ∧
      p'.ring.used = min (q + frames.toNat) p.capacityFrames * p.stride := by
  have hadmit := admissible_of_whole hstride hused
  have hargs : ¬(frames ≤ 0 ∨ p.stride = 0) := by omega
  have hword : p.capacityFrames * p.stride < 2 ^ w :=
    ((Nat.mul_le_mul_right _ (Nat.min_le_left ..)).trans (Nat.div_mul_le_self ..)).trans_lt p.ring.size.lt
  unfold writePcm
  rw [if_neg (by omega)]
  unfold preparePlaybackWrite
  rw [if_neg hargs, hadmit]
  dsimp only
  by_cases hfull : min frames.toNat (p.capacityFrames - q) = 0
  · -- nothing is admitted: the ring holds all it can
    rw [if_pos hfull]
    have hcap : min (q + frames.toNat) p.capacityFrames = q := by omega
    rw [hcap]
    exact ⟨rfl, capacityFrames_congr rfl rfl rfl, hused⟩
  · rw [if_neg hfull]
    unfold commitPlaybackWrite
    rw [if_neg (by simp only; omega)]
    refine ⟨rfl, capacityFrames_congr rfl rfl rfl, ?_⟩
    have hdist :
        Cursor.dist (p.ring.head + BitVec.ofNat w (min frames.toNat (p.capacityFrames - q) * p.stride))
          p.ring.tail = p.ring.used + min frames.toNat (p.capacityFrames - q) * p.stride := by
      refine Cursor.dist_add_left ?_
      show p.ring.used + _ < _
      rw [hused, ← Nat.add_mul]
      refine (Nat.mul_le_mul_right _ ?_).trans_lt hword
      omega
    refine hdist.trans ?_
    rw [hused, ← Nat.add_mul]
    congr 1
    omega

/-- Calls of `writePcm` in order, each with its data and its frames. -/
def writeCalls (p : Playback w) (calls : List (List UInt8 × Int)) : Playback w :=
  calls.foldl (fun p c => (p.writePcm c.1 c.2).1) p

/-- Calls on whole frames add up, capped by the capacity. -/
theorem writeCalls_whole {q : Nat} (hstride : 0 < p.stride) (hused : p.ring.used = q * p.stride) (hq : q ≤ p.capacityFrames)
    {calls : List (List UInt8 × Int)} (hcalls : ∀ c ∈ calls, 0 < c.2) :
    let p' := p.writeCalls calls
    p'.stride = p.stride ∧
      p'.ring.used = min (q + (calls.map fun c => c.2.toNat).sum) p.capacityFrames * p.stride := by
  induction calls generalizing p q with
  | nil => exact ⟨rfl, by rw [List.map_nil, List.sum_nil, Nat.add_zero, Nat.min_eq_left hq]; exact hused⟩
  | cons c calls ih =>
    obtain ⟨hstride₁, hcap₁, hused₁⟩ := writePcm_whole hstride hused hq c.1 (hcalls c List.mem_cons_self)
    obtain ⟨hstride₂, hused₂⟩ := ih (p := (p.writePcm c.1 c.2).1) (q := min (q + c.2.toNat) p.capacityFrames)
      (by rw [hstride₁]; exact hstride) (by rw [hstride₁]; exact hused₁) (by rw [hcap₁]; exact Nat.min_le_right ..)
      fun c hc => hcalls c (List.mem_cons_of_mem _ hc)
    refine ⟨hstride₂.trans hstride₁, hused₂.trans ?_⟩
    rw [hstride₁, hcap₁, List.map_cons, List.sum_cons]
    congr 1
    omega

/-- The prime fits the installed ring, and calls that offer it to an empty ring before playback bring the ring up
to it. -/
structure PrimeReachable (p : Playback w) : Prop where
  fits : p.startupPrimeFrames ≤ p.ring.size.bytes / p.stride
  filled : ∀ r : Ring w, r.size = p.ring.size → r.used = 0 → ∀ calls : List (List UInt8 × Int), (∀ c ∈ calls, 0 < c.2) →
    p.startupPrimeFrames ≤ (calls.map fun c => c.2.toNat).sum →
    p.startupPrimeFrames ≤ (writeCalls { p with ring := r, playbackStarted := false } calls).bufferedFrames

theorem primeReachable_iff (hstride : 0 < p.stride) :
    p.PrimeReachable ↔ p.startupPrimeFrames ≤ p.ring.size.bytes / p.stride := by
  constructor
  · exact fun h => h.fits
  intro hfits
  refine ⟨hfits, fun r hsize hempty calls hcalls hoffered => ?_⟩
  generalize he : ({ p with ring := r, playbackStarted := false } : Playback w) = e
  have hestride : e.stride = p.stride := by rw [← he]; rfl
  have hcap : p.startupPrimeFrames ≤ e.capacityFrames := by
    have hlimit : e.frameLimit = p.startupPrimeFrames + p.writeHeadroomFrames := by rw [← he]; rfl
    have hesize : e.ring.size = p.ring.size := by rw [← he]; exact hsize
    rw [capacityFrames, hlimit, hesize, hestride]
    omega
  have heused : e.ring.used = 0 * e.stride := by
    rw [Nat.zero_mul, ← he]
    exact hempty
  obtain ⟨hstride', hused⟩ := writeCalls_whole (by rw [hestride]; exact hstride) heused (Nat.zero_le _) hcalls
  rw [bufferedFrames_eq, hused, hstride', Nat.mul_div_cancel _ (by rw [hestride]; exact hstride)]
  omega

end Playback

namespace Driver

variable {w : Nat} {d d' : Driver w}

/-- The bound of the default ring fits the installed one, or the packet plan and the target do. -/
def PrimeFits (d : Driver w) (maxPacket : Int) : Prop :=
  kPlaybackRingBytes / d.stride - d.geometry.graphQuantum ≤ d.pb.ring.size.bytes / d.stride ∨
    d.plannedFrames maxPacket ≤ d.pb.ring.size.bytes / d.stride ∧
      d.pb.playbackTargetFrames ≤ d.pb.ring.size.bytes / d.stride

theorem startIsoPump_ring {maxPacket : Int} {alloc : Bool} (he : d.startIsoPump maxPacket alloc = some d') :
    d'.pb.ring = d.pb.ring ∧ 0 < d.stride := by
  unfold startIsoPump at he
  obtain ⟨hc, he⟩ := Option.ite_none_left_eq_some.1 he
  obtain ⟨-, -, rfl⟩ := Option.map_eq_some_iff.1 he
  rw [not_or] at hc
  exact ⟨rfl, Nat.pos_of_ne_zero hc.1⟩

/-- The prime that a successful `startIsoPump` stores is reachable exactly when it fits: for every ring, format,
packet plan, target and quantum. -/
theorem startIsoPump_prime_reachable {maxPacket : Int} {alloc : Bool} (he : d.startIsoPump maxPacket alloc = some d') :
    d'.pb.PrimeReachable ↔ d.PrimeFits maxPacket := by
  obtain ⟨hring, hpos⟩ := startIsoPump_ring he
  obtain ⟨hstride, -, -, -, hprime⟩ := startIsoPump_plan he
  have hstride' : d'.pb.stride = d.stride := hstride
  rw [Playback.primeReachable_iff (by rw [hstride']; exact hpos), hprime, hring, hstride', PrimeFits,
    startupPlaybackPrimeFrames, maxPrime, Nat.max_eq_right hpos]
  split <;> omega

/-- Eight channels of 32 bits at 48 kHz, high speed: 192 frames in the initial packets. -/
def octoStream : StreamFormat := { sampleRateHz := 48000, bitsPerSample := 32, bytesPerSample := 4, channels := 8 }

def octoStart (ringCapacityBytes : Nat) : Startup 64 :=
  run Startup.step (Startup.constructed defaultRing) [.configureUserspaceBuffers { ringCapacityBytes }, .start octoStream]

/-- The smallest ring holds 128 of these frames and the prime is 192. -/
theorem startIsoPump_prime_unreachable :
    ∃ d' : Driver 64, (octoStart 4096).drv.startIsoPump 224 true = some d' ∧ d'.pb.startupPrimeFrames = 192 ∧
      d'.pb.ring.size.bytes / d'.pb.stride = 128 ∧ ¬d'.pb.PrimeReachable := by
  have hvalues : ((octoStart 4096).drv.startIsoPump 224 true).map
      (fun d => (d.pb.startupPrimeFrames, d.pb.ring.size.bytes / d.pb.stride)) = some (192, 128) := by decide
  obtain ⟨d', hd, hpair⟩ := Option.map_eq_some_iff.1 hvalues
  obtain ⟨hprime, hroom⟩ := Prod.mk.inj hpair
  refine ⟨d', hd, hprime, hroom, fun h => ?_⟩
  have := h.fits
  omega

/-- On a ring of 8 KiB the same stream reaches its prime. -/
theorem startIsoPump_prime_reachable_octo :
    ∃ d' : Driver 64, (octoStart 8192).drv.startIsoPump 224 true = some d' ∧ d'.pb.PrimeReachable := by
  have hsome : ((octoStart 8192).drv.startIsoPump 224 true).isSome := by decide
  obtain ⟨d', hd⟩ := Option.isSome_iff_exists.1 hsome
  exact ⟨d', hd, (startIsoPump_prime_reachable hd).2 (.inr (by decide))⟩

end Driver

end UacDriver

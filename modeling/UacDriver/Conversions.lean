import UacDriver.PolicyArith
import UacDriver.Lib.Checked

/-!
# The scheduling conversions

The two conversions of `UsbScheduling.h` between frames, packets and time, in the machine integers of the source. Beside
each stands the same code with every 64-bit operation checked; it never fails, and both are exact arithmetic on the
rationals, rounded and then saturated.
-/

namespace UacDriver

/-- `std::numeric_limits<uint64_t>::max()`. -/
def kUInt64Max : UInt64 := 18446744073709551615

def kNanosecondsPerSecond : UInt64 := 1000000000

def playbackRunwayNanoseconds (queuedFrames : UInt64) (sampleRate : UInt32) : UInt64 :=
  if queuedFrames = 0 ∨ sampleRate = 0 then 0
  else
    let wholeSeconds := queuedFrames / sampleRate.toUInt64
    let remainderFrames := queuedFrames % sampleRate.toUInt64
    if wholeSeconds > kUInt64Max / kNanosecondsPerSecond then kUInt64Max
    else
      let runway := wholeSeconds * kNanosecondsPerSecond
      let remainderNs := remainderFrames * kNanosecondsPerSecond / sampleRate.toUInt64
      if runway > kUInt64Max - remainderNs then kUInt64Max else runway + remainderNs

def playbackRunwayNanosecondsChecked (queuedFrames : UInt64) (sampleRate : UInt32) : Option UInt64 := do
  if queuedFrames = 0 ∨ sampleRate = 0 then some 0
  else
    let wholeSeconds := queuedFrames / sampleRate.toUInt64
    let remainderFrames := queuedFrames % sampleRate.toUInt64
    if wholeSeconds > kUInt64Max / kNanosecondsPerSecond then some kUInt64Max
    else
      let runway ← Checked.mul wholeSeconds kNanosecondsPerSecond
      let scaled ← Checked.mul remainderFrames kNanosecondsPerSecond
      let remainderNs := scaled / sampleRate.toUInt64
      let room ← Checked.sub kUInt64Max remainderNs
      if runway > room then some kUInt64Max else Checked.add runway remainderNs

/-! ### The runway -/

theorem toNat_kUInt64Max : kUInt64Max.toNat = 2 ^ 64 - 1 := rfl

theorem toNat_kNanosecondsPerSecond : kNanosecondsPerSecond.toNat = 10 ^ 9 := rfl

/-- The seconds that the first test lets through. -/
theorem toNat_wholeSecondsLimit : (kUInt64Max / kNanosecondsPerSecond).toNat = 18446744073 := rfl

theorem le_kUInt64Max (x : UInt64) : x ≤ kUInt64Max := by
  rw [UInt64.le_iff_toNat_le, toNat_kUInt64Max]
  exact Nat.le_pred_of_lt x.toNat_lt

/-- The second test asks for the sum without forming it. -/
theorem sum_fits_iff (runway remainderNs : UInt64) :
    ¬runway > kUInt64Max - remainderNs ↔ runway.toNat + remainderNs.toNat < 2 ^ 64 := by
  have hlt := remainderNs.toNat_lt
  rw [gt_iff_lt, UInt64.lt_iff_toNat_lt, UInt64.toNat_sub_of_le _ _ (le_kUInt64Max remainderNs), toNat_kUInt64Max]
  generalize remainderNs.toNat = b at *
  omega

section

variable {queuedFrames : UInt64} {sampleRate : UInt32}

/-- The seconds that are not saturated can be scaled. -/
theorem scaledSeconds_lt {wholeSeconds : UInt64} (h : ¬wholeSeconds > kUInt64Max / kNanosecondsPerSecond) :
    wholeSeconds.toNat * kNanosecondsPerSecond.toNat < 2 ^ 64 := by
  rw [gt_iff_lt, UInt64.lt_iff_toNat_lt, toNat_wholeSecondsLimit] at h
  rw [toNat_kNanosecondsPerSecond]
  omega

/-- The remainder of a 32-bit rate can be scaled. -/
theorem scaledRemainder_lt (queuedFrames : UInt64) (hrate : sampleRate ≠ 0) :
    (queuedFrames % sampleRate.toUInt64).toNat * kNanosecondsPerSecond.toNat < 2 ^ 64 := by
  have hpos : 0 < sampleRate.toNat := Nat.pos_of_ne_zero fun hzero => hrate (UInt32.toNat_inj.1 hzero)
  have hsmall := sampleRate.toNat_lt
  have hrest : queuedFrames.toNat % sampleRate.toNat < sampleRate.toNat := Nat.mod_lt _ hpos
  rw [UInt64.toNat_mod, UInt32.toNat_toUInt64, toNat_kNanosecondsPerSecond]
  omega

/-- No operation of the conversion wraps. -/
theorem playbackRunwayNanosecondsChecked_eq (queuedFrames : UInt64) (sampleRate : UInt32) :
    playbackRunwayNanosecondsChecked queuedFrames sampleRate =
      some (playbackRunwayNanoseconds queuedFrames sampleRate) := by
  unfold playbackRunwayNanosecondsChecked playbackRunwayNanoseconds
  by_cases hnone : queuedFrames = 0 ∨ sampleRate = 0
  · rw [if_pos hnone, if_pos hnone]
  have hscaled := scaledRemainder_lt queuedFrames (not_or.1 hnone).2
  rw [if_neg hnone, if_neg hnone]
  dsimp only
  generalize queuedFrames / sampleRate.toUInt64 = wholeSeconds
  by_cases hseconds : wholeSeconds > kUInt64Max / kNanosecondsPerSecond
  · rw [if_pos hseconds, if_pos hseconds]
  rw [if_neg hseconds, if_neg hseconds, Checked.mul_eq (scaledSeconds_lt hseconds), Checked.mul_eq hscaled,
    Option.bind_eq_bind, Option.bind_some, Option.bind_some]
  generalize queuedFrames % sampleRate.toUInt64 * kNanosecondsPerSecond / sampleRate.toUInt64 = remainderNs
  generalize wholeSeconds * kNanosecondsPerSecond = runway
  have hfits := sum_fits_iff runway remainderNs
  rw [Checked.sub_eq (le_kUInt64Max remainderNs), Option.bind_some]
  generalize kUInt64Max - remainderNs = room at *
  by_cases hover : runway > room
  · rw [if_pos hover, if_pos hover]
  · rw [if_neg hover, if_neg hover]
    exact Checked.add_eq (hfits.1 hover)

/-- The two tests and the sum, in naturals: saturation of the sum. -/
theorem saturatedSum (wholeSeconds remainderNs : UInt64) :
    (if wholeSeconds > kUInt64Max / kNanosecondsPerSecond then kUInt64Max
      else if wholeSeconds * kNanosecondsPerSecond > kUInt64Max - remainderNs then kUInt64Max
      else wholeSeconds * kNanosecondsPerSecond + remainderNs).toNat =
      min (2 ^ 64 - 1) (wholeSeconds.toNat * 10 ^ 9 + remainderNs.toNat) := by
  split
  · rename_i hseconds
    rw [gt_iff_lt, UInt64.lt_iff_toNat_lt, toNat_wholeSecondsLimit] at hseconds
    rw [toNat_kUInt64Max, Nat.min_eq_left]
    omega
  rename_i hseconds
  have hrunway := Checked.toNat_mul (scaledSeconds_lt hseconds)
  rw [toNat_kNanosecondsPerSecond] at hrunway
  rw [← hrunway]
  generalize wholeSeconds * kNanosecondsPerSecond = runway
  split
  · rename_i hover
    have hsum := mt (sum_fits_iff runway remainderNs).2 (not_not.2 hover)
    rw [toNat_kUInt64Max, Nat.min_eq_left]
    exact Nat.sub_le_of_le_add ((not_lt.1 hsum).trans (Nat.le_succ _))
  · rename_i hroom
    have hsum := (sum_fits_iff runway remainderNs).1 hroom
    rw [Checked.toNat_add hsum]
    exact (Nat.min_eq_right (Nat.le_pred_of_lt hsum)).symm

/-- The conversion in naturals: exact, then saturated. -/
theorem playbackRunwayNanoseconds_toNat (queuedFrames : UInt64) (hrate : sampleRate ≠ 0) :
    (playbackRunwayNanoseconds queuedFrames sampleRate).toNat =
      min (2 ^ 64 - 1) (queuedFrames.toNat * 10 ^ 9 / sampleRate.toNat) := by
  have hpos : 0 < sampleRate.toNat := Nat.pos_of_ne_zero fun hzero => hrate (UInt32.toNat_inj.1 hzero)
  unfold playbackRunwayNanoseconds
  split
  · rename_i hnone
    rw [hnone.resolve_right hrate, UInt64.toNat_zero, Nat.zero_mul, Nat.zero_div, Nat.min_zero]
  · dsimp only
    rw [saturatedSum, Checked.mul_div_split queuedFrames.toNat (10 ^ 9) hpos, UInt64.toNat_div, UInt64.toNat_div,
      Checked.toNat_mul (scaledRemainder_lt queuedFrames hrate), UInt64.toNat_mod, UInt32.toNat_toUInt64,
      toNat_kNanosecondsPerSecond]

end

/-! ### Exactness -/

/-- Both conversions are exact arithmetic, rounded and then saturated, and no 64-bit operation on the way wraps. -/
theorem conversions_exact :
    (∀ (queuedFrames : UInt64) (sampleRate : UInt32), sampleRate ≠ 0 →
      playbackRunwayNanosecondsChecked queuedFrames sampleRate =
        some (playbackRunwayNanoseconds queuedFrames sampleRate) ∧
      (playbackRunwayNanoseconds queuedFrames sampleRate).toNat =
        min (2 ^ 64 - 1) ⌊(queuedFrames.toNat * 10 ^ 9 : ℚ) / sampleRate.toNat⌋₊) ∧
    ∀ sampleRate packetsPerTransfer packetsPerSecond : Nat, 0 < sampleRate → sampleRate < 2 ^ 31 →
      0 < packetsPerTransfer → packetsPerTransfer < 2 ^ 31 → 0 < packetsPerSecond → packetsPerSecond < 2 ^ 31 →
      nominalTransferFramesChecked sampleRate packetsPerTransfer packetsPerSecond =
        some (nominalTransferFrames sampleRate packetsPerTransfer packetsPerSecond) ∧
      nominalTransferFrames sampleRate packetsPerTransfer packetsPerSecond =
        min (2 ^ 31 - 1) ⌈(sampleRate * packetsPerTransfer : ℚ) / packetsPerSecond⌉₊ := by
  refine ⟨fun queuedFrames sampleRate hrate => ?_, fun sampleRate packetsPerTransfer packetsPerSecond hr hr' hp hp' hs hs' => ?_⟩
  · refine ⟨playbackRunwayNanosecondsChecked_eq queuedFrames sampleRate, ?_⟩
    have hfloor := Nat.floor_div_eq_div (K := ℚ) (queuedFrames.toNat * 10 ^ 9) sampleRate.toNat
    rw [playbackRunwayNanoseconds_toNat queuedFrames hrate, ← hfloor]
    norm_cast
  · refine ⟨nominalTransferFramesChecked_eq (Nat.le_of_lt_succ hr') (Nat.le_of_lt_succ hp') (Nat.le_of_lt_succ hs'), ?_⟩
    have hceil := Checked.ceil_div_eq (sampleRate * packetsPerTransfer) hs
    rw [Nat.cast_mul] at hceil
    rw [nominalTransferFrames, if_neg (by omega), hceil]
    rfl

/-- At 44.1 kHz: ten milliseconds of frames, and a transfer of eight packets, of 44.1 frames before it is rounded. -/
theorem conversions_exact_44100 :
    playbackRunwayNanosecondsChecked 441 44100 = some 10000000 ∧
      (10000000 : UInt64).toNat = min (2 ^ 64 - 1) ⌊((441 : UInt64).toNat * 10 ^ 9 : ℚ) / (44100 : UInt32).toNat⌋₊ ∧
      nominalTransferFramesChecked 44100 8 8000 = some 45 ∧
      45 = min (2 ^ 31 - 1) ⌈((44100 : Nat) * (8 : Nat) : ℚ) / (8000 : Nat)⌉₊ := by
  obtain ⟨hrunway, hfloor⟩ := conversions_exact.1 441 44100 (by decide)
  obtain ⟨hframes, hceil⟩ := conversions_exact.2 44100 8 8000 (by decide) (by decide) (by decide) (by decide) (by decide)
    (by decide)
  have hnanoseconds : playbackRunwayNanoseconds 441 44100 = 10000000 := by decide
  have hrounded : nominalTransferFrames 44100 8 8000 = 45 := by decide
  rw [hnanoseconds] at hrunway hfloor
  rw [hrounded] at hframes hceil
  exact ⟨hrunway, hfloor, hframes, hceil⟩

/-- At one frame a second: the last result below the saturation, and the first that is cut. -/
example : playbackRunwayNanoseconds 18446744073 1 = 18446744073000000000 ∧
    playbackRunwayNanoseconds 18446744074 1 = kUInt64Max := by decide

end UacDriver

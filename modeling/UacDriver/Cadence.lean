import UacDriver.Buffers
import UacDriver.Lib.Carry

/-!
# The packet cadence

How many frames the driver plans for each OUT packet of a scheduled stream. Both planners divide with a carried
remainder: the nominal scheduler divides the sample rate by the packet rate, the explicit-feedback accumulator
divides the 16.16 rates by `2 ^ 16`. The 32-bit arithmetic, the fallback for a count that is not positive and the clamp
to the packet capacity are shown to change nothing, and the sums are then those of `Carry`.
-/

namespace UacDriver

open Runs Carry

/-! ### The nominal scheduler -/

namespace RationalPacketScheduler

/-- No operation of `next` wraps. -/
def NoWrap (s : RationalPacketScheduler) : Prop :=
  s.fraction ≤ s.period ∧
    if s.remainder ≥ s.period - s.fraction then s.whole.toNat + 1 < 2 ^ 32
    else s.remainder.toNat + s.fraction.toNat < 2 ^ 32

/-- The scheduler divides `rate` by `period` and carries `r`. -/
structure Tracks (s : RationalPacketScheduler) (rate period r : Nat) : Prop where
  rate_lt : rate < 2 ^ 32
  whole : s.whole.toNat = rate / period
  fraction : s.fraction.toNat = rate % period
  period_eq : s.period.toNat = period
  remainder : s.remainder.toNat = r
  lt : r < period

theorem tracks_reset (rate pps : UInt32) : (reset rate pps).Tracks rate.toNat (max pps.toNat 1) 0 := by
  have hperiod : (if pps ≠ 0 then pps else 1).toNat = max pps.toNat 1 := by
    by_cases h : pps = 0
    · subst h
      rfl
    · have hpos : pps.toNat ≠ 0 := fun h0 => h (UInt32.toNat_inj.1 h0)
      rw [if_pos h]
      omega
  refine ⟨rate.toNat_lt, ?_, ?_, hperiod, rfl, by omega⟩
  · rw [reset, UInt32.toNat_div, hperiod]
  · rw [reset, UInt32.toNat_mod, hperiod]

namespace Tracks

variable {s : RationalPacketScheduler} {rate period r : Nat}

theorem period_sub (h : s.Tracks rate period r) : (s.period - s.fraction).toNat = period - rate % period := by
  have hmod := Nat.mod_lt rate (Nat.zero_lt_of_lt h.lt)
  have hle : s.fraction ≤ s.period := UInt32.le_iff_toNat_le.2 (by rw [h.fraction, h.period_eq]; exact hmod.le)
  rw [UInt32.toNat_sub_of_le _ _ hle, h.period_eq, h.fraction]

theorem carries_iff (h : s.Tracks rate period r) :
    s.remainder ≥ s.period - s.fraction ↔ period ≤ r + rate % period := by
  have hmod := Nat.mod_lt rate (Nat.zero_lt_of_lt h.lt)
  rw [ge_iff_le, UInt32.le_iff_toNat_le, h.period_sub, h.remainder]
  omega

/-- A turn that carries has a fraction, so the quotient is at most half of what a word holds. -/
theorem whole_lt (h : s.Tracks rate period r) (hc : period ≤ r + rate % period) : rate / period + 1 < 2 ^ 32 := by
  have hperiod : 2 ≤ period := by
    have hlt := h.lt
    rcases Nat.lt_or_ge period 2 with hp | hp
    · have hone : period = 1 := by omega
      rw [hone, Nat.mod_one] at hc
      omega
    · exact hp
  have hle : rate / period ≤ rate / 2 := Nat.div_le_div_left hperiod (by decide)
  have := h.rate_lt
  omega

theorem noWrap (h : s.Tracks rate period r) : s.NoWrap := by
  have hmod := Nat.mod_lt rate (Nat.zero_lt_of_lt h.lt)
  have hperiod : period < 2 ^ 32 := h.period_eq ▸ s.period.toNat_lt
  refine ⟨UInt32.le_iff_toNat_le.2 (by rw [h.fraction, h.period_eq]; exact hmod.le), ?_⟩
  split
  · rename_i hc
    rw [h.whole]
    exact h.whole_lt (h.carries_iff.1 hc)
  · rename_i hc
    have := mt h.carries_iff.2 hc
    rw [h.remainder, h.fraction]
    omega

theorem next (h : s.Tracks rate period r) :
    s.next.1.toNat = (r + rate) / period ∧ s.next.2.Tracks rate period ((r + rate) % period) := by
  have hpos : 0 < period := Nat.zero_lt_of_lt h.lt
  have hmod := Nat.mod_lt rate hpos
  have hlt := h.lt
  have hsplit : r + rate = r + rate % period + period * (rate / period) := by
    have := Nat.mod_add_div rate period
    omega
  unfold RationalPacketScheduler.next
  split
  · rename_i hc
    have hge := h.carries_iff.1 hc
    have hq : (r + rate) / period = rate / period + 1 := by
      rw [hsplit, Nat.add_mul_div_left _ _ hpos,
        Nat.div_eq_of_lt_le (by omega) (by omega : r + rate % period < (1 + 1) * period), Nat.add_comm]
    have hr : (r + rate) % period = r + rate % period - period := by
      rw [hsplit, Nat.add_mul_mod_self_left, Nat.mod_eq_sub_mod hge, Nat.mod_eq_of_lt (by omega)]
    have hone : (s.whole + 1).toNat = s.whole.toNat + 1 := by
      have := h.whole_lt hge
      rw [← h.whole] at this
      rw [UInt32.toNat_add]
      exact Nat.mod_eq_of_lt this
    refine ⟨by rw [hq, hone, h.whole], h.rate_lt, h.whole, h.fraction, h.period_eq, ?_, Nat.mod_lt _ hpos⟩
    rw [UInt32.toNat_sub_of_le _ _ hc, h.period_sub, h.remainder, hr]
    omega
  · rename_i hc
    have hlt' : r + rate % period < period := by
      have := mt h.carries_iff.2 hc
      omega
    have hq : (r + rate) / period = rate / period := by
      rw [hsplit, Nat.add_mul_div_left _ _ hpos, Nat.div_eq_of_lt hlt', Nat.zero_add]
    have hr : (r + rate) % period = r + rate % period := by
      rw [hsplit, Nat.add_mul_mod_self_left, Nat.mod_eq_of_lt hlt']
    have hperiod : period < 2 ^ 32 := h.period_eq ▸ s.period.toNat_lt
    refine ⟨by rw [hq, h.whole], h.rate_lt, h.whole, h.fraction, h.period_eq, ?_, Nat.mod_lt _ hpos⟩
    rw [UInt32.toNat_add, h.remainder, h.fraction, hr]
    exact Nat.mod_eq_of_lt (by omega)

theorem nextN (h : s.Tracks rate period r) (k : Nat) :
    (s.nextN k).1 = shares period r (List.replicate k rate) ∧
      (s.nextN k).2.Tracks rate period (rest period r (List.replicate k rate)) := by
  induction k generalizing s r with
  | zero => exact ⟨rfl, h⟩
  | succ k ih =>
    obtain ⟨hfirst, htracks⟩ := h.next
    obtain ⟨hrest, htracks'⟩ := ih htracks
    exact ⟨congrArg₂ List.cons hfirst hrest, htracks'⟩

end Tracks

end RationalPacketScheduler

/-! ### One packet -/

namespace Pacing

/-- The count of the packet loop before the fallback and the clamp. -/
def scheduledPacket (pc : Pacing) (feedbackEndpointAddress : Nat) : Nat :=
  if feedbackEndpointAddress = 0 then pc.nominalScheduler.next.1.toNat
  else ((pc.fracAccumulator_q16 + pc.framesPerUframe_q16) >>> 16).toNat

def scheduledPackets (pc : Pacing) (feedbackEndpointAddress : Nat) : Nat → List Nat
  | 0 => []
  | n + 1 =>
    pc.scheduledPacket feedbackEndpointAddress ::
      (pc.planPacket feedbackEndpointAddress).2.scheduledPackets feedbackEndpointAddress n

theorem resolveFrames_eq {rate scheduled : UInt32} (hlt : scheduled.toNat < 2 ^ 31)
    (hzero : scheduled.toNat = 0 → (rate >>> 16).toNat = 0) : resolveFrames rate scheduled = scheduled.toNat := by
  unfold resolveFrames
  split
  · rename_i hle
    have h0 : scheduled.toNat = 0 := by
      have hint : scheduled.toInt32.toInt = scheduled.toNat :=
        BitVec.toInt_eq_toNat_of_lt (show 2 * scheduled.toNat < 2 ^ 32 by omega)
      have := Int32.le_iff_toInt_le.1 hle
      rw [hint, Int32.toInt_zero] at this
      omega
    rw [h0]
    exact hzero h0
  · rfl

/-- A stream without feedback: the scheduler carries `r`, and the largest count it can return fits a packet. -/
structure Nominal (pc : Pacing) (rate period r : Nat) : Prop where
  tracks : pc.nominalScheduler.Tracks rate period r
  rate_lt : rate < 2 ^ 31
  fits : rate / period + (if 0 < rate % period then 1 else 0) ≤ pc.maxFramesPerPacket
  slow : rate / period = 0 → (pc.framesPerUframe_q16 >>> 16).toNat = 0

/-- A stream paced by feedback: the accumulator carries `r`, and the rate fits a packet. -/
structure Explicit (pc : Pacing) (r : Nat) : Prop where
  carry : pc.fracAccumulator_q16.toNat = r
  lt : r < 2 ^ 16
  max_le : pc.maxFramesPerPacket ≤ 8188
  rate_le : pc.framesPerUframe_q16.toNat ≤ pc.maxFramesPerPacket * 2 ^ 16

variable {pc : Pacing} {rate period r : Nat}

theorem Nominal.planPacket (h : pc.Nominal rate period r) :
    (pc.planPacket 0).1 = (r + rate) / period ∧ pc.scheduledPacket 0 = (r + rate) / period ∧
      (pc.planPacket 0).2.Nominal rate period ((r + rate) % period) := by
  obtain ⟨hcount, htracks⟩ := h.tracks.next
  have hlt := h.tracks.lt
  -- the count is the quotient or one more
  have hmem : (r + rate) / period = rate / period ∨ (r + rate) / period = rate / period + 1 ∧ rate % period ≠ 0 :=
    mem_shares_replicate (k := 1) hlt (List.mem_singleton.2 rfl)
  have hfits := h.fits
  have hle : (r + rate) / period ≤ pc.maxFramesPerPacket := by
    rcases hmem with hq | ⟨hq, hne⟩
    · omega
    · rw [if_pos (by omega)] at hfits
      omega
  have hsmall : (r + rate) / period < 2 ^ 31 := by
    rcases hmem with hq | ⟨hq, hne⟩
    · rw [hq]
      exact Nat.lt_of_le_of_lt (Nat.div_le_self _ _) h.rate_lt
    · have hperiod : 2 ≤ period := by
        rcases Nat.lt_or_ge period 2 with hp | hp
        · have hone : period = 1 := by omega
          rw [hone, Nat.mod_one] at hne
          exact absurd rfl hne
        · exact hp
      have hhalf : rate / period ≤ rate / 2 := Nat.div_le_div_left hperiod (by decide)
      have := h.rate_lt
      omega
  have hresolve : resolveFrames pc.framesPerUframe_q16 pc.nominalScheduler.next.1 = (r + rate) / period := by
    rw [resolveFrames_eq (hcount ▸ hsmall) fun h0 => h.slow ?_, hcount]
    rw [hcount] at h0
    rcases hmem with hq | ⟨hq, -⟩
    · exact hq.symm.trans h0
    · rw [hq] at h0
      cases h0
  have hplan : pc.planPacket 0 = (min (resolveFrames pc.framesPerUframe_q16 pc.nominalScheduler.next.1)
      pc.maxFramesPerPacket, { pc with nominalScheduler := pc.nominalScheduler.next.2 }) := if_pos rfl
  rw [hplan, hresolve]
  exact ⟨Nat.min_eq_left hle, hcount, htracks, h.rate_lt, h.fits, h.slow⟩

theorem Explicit.planPacket (h : pc.Explicit r) {fb : Nat} (hfb : fb ≠ 0) :
    (pc.planPacket fb).1 = (r + pc.framesPerUframe_q16.toNat) / 2 ^ 16 ∧
      pc.scheduledPacket fb = (r + pc.framesPerUframe_q16.toNat) / 2 ^ 16 ∧
      (pc.planPacket fb).2.framesPerUframe_q16 = pc.framesPerUframe_q16 ∧
      (pc.planPacket fb).2.Explicit ((r + pc.framesPerUframe_q16.toNat) % 2 ^ 16) := by
  have hlt := h.lt
  have hmax := h.max_le
  have hrate := h.rate_le
  have hacc : (pc.fracAccumulator_q16 + pc.framesPerUframe_q16).toNat = r + pc.framesPerUframe_q16.toNat := by
    rw [UInt32.toNat_add, h.carry]
    exact Nat.mod_eq_of_lt (by omega)
  have hshift : ((pc.fracAccumulator_q16 + pc.framesPerUframe_q16) >>> 16).toNat =
      (r + pc.framesPerUframe_q16.toNat) / 2 ^ 16 := by
    rw [UInt32.toNat_shiftRight, hacc, Nat.shiftRight_eq_div_pow]
    rfl
  have hle : (r + pc.framesPerUframe_q16.toNat) / 2 ^ 16 ≤ pc.maxFramesPerPacket := by omega
  -- a count of zero means that the rate alone is below one frame
  have hresolve : resolveFrames pc.framesPerUframe_q16 ((pc.fracAccumulator_q16 + pc.framesPerUframe_q16) >>> 16) =
      (r + pc.framesPerUframe_q16.toNat) / 2 ^ 16 := by
    rw [resolveFrames_eq (by rw [hshift]; omega) ?_, hshift]
    intro h0
    rw [hshift] at h0
    rw [UInt32.toNat_shiftRight, Nat.shiftRight_eq_div_pow]
    exact Nat.div_eq_of_lt (show _ < 2 ^ 16 by omega)
  have hplan : pc.planPacket fb = (min (resolveFrames pc.framesPerUframe_q16
      ((pc.fracAccumulator_q16 + pc.framesPerUframe_q16) >>> 16)) pc.maxFramesPerPacket,
      { pc with fracAccumulator_q16 := (pc.fracAccumulator_q16 + pc.framesPerUframe_q16) &&& 0xFFFF }) := if_neg hfb
  rw [hplan, scheduledPacket, if_neg hfb, hresolve, hshift]
  refine ⟨Nat.min_eq_left hle, rfl, rfl, ?_, Nat.mod_lt _ (by decide), h.max_le, h.rate_le⟩
  rw [UInt32.toNat_and, hacc]
  exact Nat.and_two_pow_sub_one_eq_mod _ 16

/-! ### One completion -/

theorem Nominal.planPackets (h : pc.Nominal rate period r) (n : Nat) :
    (pc.planPackets 0 n).1 = shares period r (List.replicate n rate) ∧
      pc.scheduledPackets 0 n = shares period r (List.replicate n rate) ∧
      (pc.planPackets 0 n).2.Nominal rate period (rest period r (List.replicate n rate)) := by
  induction n generalizing pc r with
  | zero => exact ⟨rfl, rfl, h⟩
  | succ n ih =>
    obtain ⟨hplan, hscheduled, hnext⟩ := h.planPacket
    obtain ⟨hplans, hscheduleds, hnexts⟩ := ih hnext
    exact ⟨congrArg₂ List.cons hplan hplans, congrArg₂ List.cons hscheduled hscheduleds, hnexts⟩

theorem Explicit.planPackets (h : pc.Explicit r) {fb : Nat} (hfb : fb ≠ 0) (n : Nat) :
    (pc.planPackets fb n).1 = shares (2 ^ 16) r (List.replicate n pc.framesPerUframe_q16.toNat) ∧
      pc.scheduledPackets fb n = shares (2 ^ 16) r (List.replicate n pc.framesPerUframe_q16.toNat) ∧
      (pc.planPackets fb n).2.Explicit (rest (2 ^ 16) r (List.replicate n pc.framesPerUframe_q16.toNat)) := by
  induction n generalizing pc r with
  | zero => exact ⟨rfl, rfl, h⟩
  | succ n ih =>
    obtain ⟨hplan, hscheduled, hrate, hnext⟩ := h.planPacket hfb
    obtain ⟨hplans, hscheduleds, hnexts⟩ := ih hnext
    rw [hrate] at hplans hscheduleds hnexts
    exact ⟨congrArg₂ List.cons hplan hplans, congrArg₂ List.cons hscheduled hscheduleds, hnexts⟩

end Pacing

end UacDriver

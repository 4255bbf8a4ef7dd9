import UacDriver.PolicySound
import UacDriver.PrimeGate
import Mathlib.Tactic.IntervalCases

/-!
# The arithmetic of the endpoint capacity test

`selectAltSetting` turns the interval of an endpoint into a packet rate on its own, without the clamps of
`packetsPerSecondForInterval` and of `startIsoPump`. At high speed the rate is zero from an interval exponent of 13 on,
and the shift is undefined from 31 on; every other interval gives the clamped rate. Where the rates agree and the
integers do not overflow, an alternate setting that passes the test passes the capacity check of the pump.
-/

namespace UacDriver

namespace Endpoint

variable (iso : Endpoint) (isHs : Bool)

/-- `packetsPerSec` of `selectAltSetting`; `none` for a shift by 31 or more. -/
def packetsPerSec : Option Int := do
  let bInterval : Int := iso.bInterval.toNat
  let microframesPerInterval ←
    if isHs then
      let shift := if 0 < bInterval then bInterval - 1 else 0
      if shift < 31 then some ((2 : Int) ^ shift.toNat) else none
    else some bInterval
  let microframesPerSecond : Int := if isHs then 8000 else 1000
  some (if 0 < microframesPerInterval then microframesPerSecond / microframesPerInterval else microframesPerSecond)

/-- `realMps`: the packet size times the transactions of an interval. -/
def capacity : Nat := (iso.wMaxPacketSize &&& 0x07FF).toNat * (((iso.wMaxPacketSize >>> 11) &&& 0x3).toNat + 1)

/-- The packet rate of the other two places. -/
def clampedRate : Nat := packetsPerSecondForInterval isHs iso.bInterval.toNat

theorem bInterval_le : iso.bInterval.toNat ≤ 255 := Nat.le_of_lt_succ (UInt8.toNat_lt _)

theorem clampedRate_pos : 0 < iso.clampedRate isHs := by
  unfold clampedRate packetsPerSecondForInterval
  dsimp only
  omega

/-- At high speed the rate is the clamped one, zero, or undefined; at full speed it is the clamped one. -/
theorem packetsPerSec_eq : iso.packetsPerSec isHs =
    if isHs = true ∧ 32 ≤ iso.bInterval.toNat then none
    else if isHs = true ∧ 14 ≤ iso.bInterval.toNat then some 0
    else some (iso.clampedRate isHs : Int) := by
  have hb := iso.bInterval_le
  unfold packetsPerSec clampedRate packetsPerSecondForInterval
  generalize iso.bInterval.toNat = b at hb
  cases isHs
  · have hrate : (if 0 < (b : Int) then (1000 : Int) / b else 1000) = ((max 1 (1000 / max 1 b) : Nat) : Int) := by
      rcases Nat.eq_zero_or_pos b with rfl | hpos
      · rfl
      · have hone : 1 ≤ 1000 / b := (Nat.one_le_div_iff hpos).2 (by omega)
        rw [if_pos (by omega), Nat.max_eq_right (a := 1) (b := b) hpos, Nat.max_eq_right hone]
        rfl
    simp only [Bool.false_eq_true, false_and, if_false, Option.bind_eq_bind, Option.bind_some]
    rw [hrate]
  · simp only [true_and, if_true, Option.bind_eq_bind]
    by_cases h32 : 32 ≤ b
    · have hpos : (0 : Int) < b := by omega
      rw [if_pos h32, if_pos hpos, if_neg (by omega)]
      rfl
    rw [if_neg h32]
    by_cases h14 : 14 ≤ b
    · have hpos : (0 : Int) < b := by omega
      have hshift : ((b : Int) - 1).toNat = b - 1 := by omega
      have hlarge : (2 : Int) ^ 13 ≤ 2 ^ (b - 1) := pow_le_pow_right₀ (by decide) (by omega)
      have hzero : (8000 : Int) / 2 ^ (b - 1) = 0 := Int.ediv_eq_zero_of_lt (by decide) (by omega)
      rw [if_pos h14, if_pos hpos, if_pos (by omega), hshift, Option.bind_some, if_pos (by omega), hzero]
    · rw [if_neg h14]
      have hsmall : b ≤ 13 := by omega
      interval_cases b <;> rfl

end Endpoint

/-- `frameStride` of `selectAltSetting`. -/
def StreamRequest.stride (req : StreamRequest) (altSubslot : Nat) : Int :=
  (if altSubslot ≠ 0 then (altSubslot : Int) else req.bitsPerSample.tdiv 8) * req.channels

namespace Endpoint

variable {iso : Endpoint} {isHs : Bool} {req : StreamRequest} {altSubslot : Nat}

/-- The frames of a nominal packet, rounded up. -/
def nominalFrames (iso : Endpoint) (isHs : Bool) (rate : Int) : Int :=
  (rate + iso.clampedRate isHs - 1) / iso.clampedRate isHs

/-- The interval has a packet rate, and neither the rounding nor the packet size overflows. -/
structure Sound (iso : Endpoint) (isHs : Bool) (req : StreamRequest) (altSubslot : Nat) : Prop where
  interval : isHs = true → iso.bInterval.toNat ≤ 13
  rounding : req.sampleRateHz + iso.clampedRate isHs < 2 ^ 31
  bytes : iso.nominalFrames isHs req.sampleRateHz * req.stride altSubslot < 2 ^ 31

/-- The capacity test at a packet rate. -/
def fitsAt (iso : Endpoint) (req : StreamRequest) (altSubslot : Nat) (packetsPerSec : Int) : Option Bool := do
  let frameStride ← checkedInt (req.stride altSubslot)
  let sum ← checkedInt (req.sampleRateHz + packetsPerSec)
  let nominalFramesPerPacket ← if packetsPerSec = 0 then none else some ((sum - 1).tdiv packetsPerSec)
  let reqBytesPerPacket ← checkedInt (nominalFramesPerPacket * frameStride)
  some (decide (reqBytesPerPacket ≤ iso.capacity))

theorem fits_eq : iso.fits isHs req altSubslot = (iso.packetsPerSec isHs).bind (iso.fitsAt req altSubslot) := by
  unfold fits packetsPerSec
  cases isHs
  · rfl
  · dsimp only [Option.bind_eq_bind]
    generalize (if 0 < (iso.bInterval.toNat : Int) then (iso.bInterval.toNat : Int) - 1 else 0) = shift
    by_cases hshift : shift < 31
    · rw [if_pos rfl, if_pos rfl, if_pos hshift, if_pos hshift]
      rfl
    · rw [if_pos rfl, if_pos rfl, if_neg hshift, if_neg hshift]
      rfl

theorem checkedInt_of_range {x : Int} (h₀ : -2 ^ 31 ≤ x) (h₁ : x < 2 ^ 31) : checkedInt x = some x := if_pos ⟨h₀, h₁⟩

theorem checkedInt_of_large {x : Int} (h : 2 ^ 31 ≤ x) : checkedInt x = none := if_neg fun hr => by omega

theorem nominalFrames_nonneg (hrate : 0 < req.sampleRateHz) : 0 ≤ iso.nominalFrames isHs req.sampleRateHz :=
  Int.ediv_nonneg (by have := iso.clampedRate_pos isHs; omega) (by omega)

/-- The capacity test where its arithmetic is sound. -/
theorem fits_of_sound (hrate : 0 < req.sampleRateHz) (hstride : 0 ≤ req.stride altSubslot)
    (hstride' : req.stride altSubslot < 2 ^ 31) (h : iso.Sound isHs req altSubslot) :
    iso.fits isHs req altSubslot =
      some (decide (iso.nominalFrames isHs req.sampleRateHz * req.stride altSubslot ≤ iso.capacity)) := by
  have hpos := iso.clampedRate_pos isHs
  have hbytes : 0 ≤ iso.nominalFrames isHs req.sampleRateHz * req.stride altSubslot :=
    Int.mul_nonneg (nominalFrames_nonneg hrate) hstride
  have hinterval : ∀ n, 14 ≤ n → ¬ (isHs = true ∧ n ≤ iso.bInterval.toNat) := fun n hn hh => by
    have := h.interval hh.1
    omega
  have hdiv : (req.sampleRateHz + iso.clampedRate isHs - 1).tdiv (iso.clampedRate isHs) =
      iso.nominalFrames isHs req.sampleRateHz := Int.tdiv_eq_ediv_of_nonneg (by omega)
  rw [fits_eq, packetsPerSec_eq, if_neg (hinterval 32 (by decide)), if_neg (hinterval 14 (by decide)), Option.bind_some,
    fitsAt]
  simp only [Option.bind_eq_bind]
  rw [checkedInt_of_range (by omega) hstride', Option.bind_some, checkedInt_of_range (by omega) h.rounding,
    Option.bind_some, if_neg (by omega), Option.bind_some, hdiv, checkedInt_of_range (by omega) h.bytes, Option.bind_some]

/-- Anything else is undefined. -/
theorem fits_of_not_sound (hrate : 0 < req.sampleRateHz) (h : ¬ iso.Sound isHs req altSubslot) :
    iso.fits isHs req altSubslot = none := by
  rw [fits_eq, packetsPerSec_eq]
  split
  · rfl
  unfold fitsAt
  simp only [Option.bind_eq_bind]
  split
  · -- a rate of zero is divided by
    simp
  rename_i h32 h14
  rw [Option.bind_some]
  have hpos := iso.clampedRate_pos isHs
  cases hs : checkedInt (req.stride altSubslot) with
  | none => rfl
  | some frameStride =>
    obtain rfl : frameStride = req.stride altSubslot := by
      unfold checkedInt at hs
      split at hs
      · exact (Option.some.inj hs).symm
      · cases hs
    rw [Option.bind_some]
    by_cases hround : req.sampleRateHz + iso.clampedRate isHs < 2 ^ 31
    swap
    · rw [checkedInt_of_large (by omega)]
      rfl
    have hdiv : (req.sampleRateHz + iso.clampedRate isHs - 1).tdiv (iso.clampedRate isHs) =
        iso.nominalFrames isHs req.sampleRateHz := Int.tdiv_eq_ediv_of_nonneg (by omega)
    rw [checkedInt_of_range (by omega) hround, Option.bind_some, if_neg (by omega), Option.bind_some, hdiv,
      checkedInt_of_large, Option.bind_none]
    by_contra hbytes
    exact h ⟨fun hh => by by_contra hn; exact h14 ⟨hh, by omega⟩, hround, by omega⟩

end Endpoint

/-! ### The selection -/

theorem InterfaceDescriptor.admits_eq_some {alt : InterfaceDescriptor} {v : Nat} {req : StreamRequest} {s : AltScan}
    {iso : Endpoint} (h : alt.admits v req = some (s, iso)) :
    s = alt.scanAlt v req.sampleRateHz ∧ (s.altChannels : Int) = req.channels ∧ (s.altBits : Int) = req.bitsPerSample := by
  unfold admits at h
  obtain ⟨-, h⟩ := Option.ite_none_left_eq_some.1 h
  obtain ⟨-, h⟩ := Option.ite_none_left_eq_some.1 h
  obtain ⟨hasked, h⟩ := Option.ite_none_left_eq_some.1 h
  obtain ⟨-, h⟩ := Option.ite_none_left_eq_some.1 h
  obtain ⟨_, -, he⟩ := Option.map_eq_some_iff.1 h
  cases he
  rw [not_or, not_not, not_not] at hasked
  exact ⟨rfl, hasked.1, hasked.2⟩

/-- The frames of an admitted setting take at most 255 times 255 bytes. -/
theorem InterfaceDescriptor.stride_range {alt : InterfaceDescriptor} {v : Nat} {req : StreamRequest} {s : AltScan}
    {iso : Endpoint} (h : alt.admits v req = some (s, iso)) :
    0 ≤ req.stride s.altSubslot ∧ req.stride s.altSubslot < 2 ^ 31 := by
  obtain ⟨rfl, hchannels, hbits⟩ := admits_eq_some h
  obtain ⟨hc, hb, hs⟩ := alt.scanAlt_bytes v req.sampleRateHz
  have htdiv : req.bitsPerSample.tdiv 8 = req.bitsPerSample / 8 := Int.tdiv_eq_ediv_of_nonneg (by omega)
  unfold StreamRequest.stride
  rw [← hchannels, htdiv]
  split
  · constructor
    · exact Int.mul_nonneg (by omega) (by omega)
    · have : (alt.scanAlt v req.sampleRateHz).altSubslot * (alt.scanAlt v req.sampleRateHz).altChannels ≤ 255 * 255 :=
        Nat.mul_le_mul hs hc
      have hcast : (((alt.scanAlt v req.sampleRateHz).altSubslot * (alt.scanAlt v req.sampleRateHz).altChannels : Nat) : Int) ≤
        ((255 * 255 : Nat) : Int) := Int.ofNat_le.2 this
      push_cast at hcast
      omega
  · constructor
    · exact Int.mul_nonneg (by omega) (by omega)
    · have : req.bitsPerSample / 8 * (alt.scanAlt v req.sampleRateHz).altChannels ≤ 255 * 255 :=
        Int.mul_le_mul (by omega) (by omega) (by omega) (by decide)
      omega

namespace Topology

variable {t : Topology} {isHs : Bool} {req : StreamRequest}

/-- A setting that `selectAltSetting` goes on from: it fails a test, or its packets are too small. -/
def PassesOver (t : Topology) (isHs : Bool) (req : StreamRequest) (alt : InterfaceDescriptor) : Prop :=
  ∀ s iso, alt.admits t.uacVersion req = some (s, iso) →
    iso.capacity < iso.nominalFrames isHs req.sampleRateHz * req.stride s.altSubslot

/-- Every setting that is tested for its capacity has sound arithmetic. -/
def Sound (t : Topology) (isHs : Bool) (req : StreamRequest) (alts : List InterfaceDescriptor) : Prop :=
  ∀ pre alt post s iso, alts = pre ++ alt :: post → (∀ e ∈ pre, t.PassesOver isHs req e) →
    alt.admits t.uacVersion req = some (s, iso) → iso.Sound isHs req s.altSubslot

theorem Sound.tail {alt : InterfaceDescriptor} {rest : List InterfaceDescriptor} (h : t.Sound isHs req (alt :: rest))
    (hover : t.PassesOver isHs req alt) : t.Sound isHs req rest := by
  intro pre alt' post s iso hsplit hpre hadmits
  refine h (alt :: pre) alt' post s iso (by rw [hsplit]; rfl) (fun e he => ?_) hadmits
  rcases List.mem_cons.1 he with rfl | he
  · exact hover
  · exact hpre e he

theorem Sound.cons {alt : InterfaceDescriptor} {rest : List InterfaceDescriptor}
    (hhead : ∀ s iso, alt.admits t.uacVersion req = some (s, iso) → iso.Sound isHs req s.altSubslot)
    (htail : t.PassesOver isHs req alt → t.Sound isHs req rest) : t.Sound isHs req (alt :: rest) := by
  intro pre alt' post s iso hsplit hpre hadmits
  cases pre with
  | nil =>
    obtain ⟨rfl, -⟩ := List.cons.inj hsplit
    exact hhead s iso hadmits
  | cons e pre =>
    obtain ⟨rfl, hrest⟩ := List.cons.inj hsplit
    exact htail (hpre _ List.mem_cons_self) pre alt' post s iso hrest
      (fun x hx => hpre x (List.mem_cons_of_mem _ hx)) hadmits

/-- The selection stays defined exactly over sound settings. -/
theorem select_defined_iff (hrate : 0 < req.sampleRateHz) (alts : List InterfaceDescriptor) :
    t.select isHs req alts ≠ .error .undefined ↔ t.Sound isHs req alts := by
  induction alts with
  | nil =>
    simp only [select, ne_eq, Except.error.injEq, reduceCtorEq, not_false_eq_true, true_iff]
    intro pre alt post s iso hsplit
    exact absurd hsplit.symm (List.append_ne_nil_of_right_ne_nil _ (List.cons_ne_nil _ _))
  | cons alt rest ih =>
    rw [select]
    cases hadmits : alt.admits t.uacVersion req with
    | none =>
      have hover : t.PassesOver isHs req alt := fun s iso h => by rw [hadmits] at h; cases h
      rw [ih]
      exact ⟨fun h => .cons (fun s iso h' => by rw [hadmits] at h'; cases h') fun _ => h, fun h => h.tail hover⟩
    | some r =>
      obtain ⟨s, iso⟩ := r
      obtain ⟨h₀, h₁⟩ := alt.stride_range hadmits
      dsimp only
      by_cases hsound : iso.Sound isHs req s.altSubslot
      swap
      · rw [Endpoint.fits_of_not_sound hrate hsound]
        simp only [ne_eq, not_true_eq_false, false_iff]
        exact fun h => hsound (h [] alt rest s iso rfl (fun _ hmem => absurd hmem List.not_mem_nil) hadmits)
      have hhead : ∀ s' iso', alt.admits t.uacVersion req = some (s', iso') → iso'.Sound isHs req s'.altSubslot := by
        intro s' iso' h'
        rw [hadmits] at h'
        cases h'
        exact hsound
      rw [Endpoint.fits_of_sound hrate h₀ h₁ hsound]
      by_cases hfit : iso.nominalFrames isHs req.sampleRateHz * req.stride s.altSubslot ≤ iso.capacity
      · rw [decide_eq_true hfit]
        simp only [ne_eq, reduceCtorEq, not_false_eq_true, true_iff]
        refine .cons hhead fun hover => ?_
        have := hover s iso hadmits
        omega
      · rw [decide_eq_false hfit]
        have hover : t.PassesOver isHs req alt := by
          intro s' iso' h'
          rw [hadmits] at h'
          cases h'
          omega
        rw [ih]
        exact ⟨fun h => .cons hhead fun _ => h, fun h => h.tail hover⟩

/-- The setting of a format that was selected. -/
theorem select_fits {alts : List InterfaceDescriptor} {f : StreamFormat} (h : t.select isHs req alts = .ok f) :
    ∃ alt ∈ alts, ∃ s iso, alt.admits t.uacVersion req = some (s, iso) ∧ iso.fits isHs req s.altSubslot = some true ∧
      f = t.streamFormat isHs req alt s iso := by
  induction alts with
  | nil => cases h
  | cons alt rest ih =>
    have hrest (h : t.select isHs req rest = .ok f) : ∃ alt' ∈ alt :: rest, ∃ s iso,
        alt'.admits t.uacVersion req = some (s, iso) ∧ iso.fits isHs req s.altSubslot = some true ∧
          f = t.streamFormat isHs req alt' s iso := by
      obtain ⟨alt', hmem, hrest⟩ := ih h
      exact ⟨alt', List.mem_cons_of_mem _ hmem, hrest⟩
    rw [select] at h
    split at h
    · exact hrest h
    · rename_i s iso hadmits
      split at h
      · cases h
      · exact hrest h
      · rename_i hfits
        cases h
        exact ⟨alt, List.mem_cons_self, s, iso, hadmits, hfits, rfl⟩

theorem roundUp_eq {n c : Nat} (hc : 0 < c) : (n + (c - 1)) / c = n / c + if 0 < n % c then 1 else 0 := by
  rw [Nat.add_div hc, Nat.div_eq_of_lt (show c - 1 < c by omega), Nat.mod_eq_of_lt (show c - 1 < c by omega), Nat.add_zero]
  congr 1
  split <;> split <;> omega

/-- The rate of the test is the rate of the pump, and the capacity check of the pump passes. -/
theorem streamFormat_fits {alt : InterfaceDescriptor} {s : AltScan} {iso : Endpoint} (hrate : 0 < req.sampleRateHz)
    (hadmits : alt.admits t.uacVersion req = some (s, iso)) (hfits : iso.fits isHs req s.altSubslot = some true) :
    let f := t.streamFormat isHs req alt s iso
    iso.packetsPerSec isHs = some (f.microframesPerSec : Int) ∧
    ∀ (w : Nat) (d : Driver w), d.pb.format = f → d.stride ≠ 0 → d.pumpRefused iso.capacity = false := by
  intro f
  obtain ⟨h₀, h₁⟩ := alt.stride_range hadmits
  obtain ⟨-, hchannels, hbits⟩ := InterfaceDescriptor.admits_eq_some hadmits
  have hsound : iso.Sound isHs req s.altSubslot := by
    by_contra hsound
    rw [Endpoint.fits_of_not_sound hrate hsound] at hfits
    cases hfits
  rw [Endpoint.fits_of_sound hrate h₀ h₁ hsound] at hfits
  have hfit : iso.nominalFrames isHs req.sampleRateHz * req.stride s.altSubslot ≤ iso.capacity := by simpa using hfits
  have hclamped : iso.clampedRate isHs = f.microframesPerSec := packetsPerSecondForInterval_eq f
  refine ⟨?_, fun w d hd hstride => ?_⟩
  · rw [Endpoint.packetsPerSec_eq, if_neg, if_neg, hclamped]
    · rintro ⟨hh, hn⟩
      have := hsound.interval hh
      omega
    · rintro ⟨hh, hn⟩
      have := hsound.interval hh
      omega
  have hstride_eq : (d.stride : Int) = req.stride s.altSubslot := by
    have htdiv : req.bitsPerSample.tdiv 8 = req.bitsPerSample / 8 := Int.tdiv_eq_ediv_of_nonneg (by omega)
    show ((d.pb.format.frameStride : Nat) : Int) = _
    rw [hd]
    show ((req.channels.toNat * (if s.altSubslot ≠ 0 then s.altSubslot else (req.bitsPerSample.tdiv 8).toNat) : Nat) : Int) = _
    unfold StreamRequest.stride
    rw [htdiv, Int.natCast_mul, Int.mul_comm, Int.toNat_of_nonneg (by omega)]
    congr 1
    split
    · rfl
    · exact Int.toNat_of_nonneg (by omega)
  have hpos := iso.clampedRate_pos isHs
  -- the rounded-up quotient, as the pump computes it
  have hnominal : ((req.sampleRateHz.toNat / iso.clampedRate isHs +
      (if 0 < req.sampleRateHz.toNat % iso.clampedRate isHs then 1 else 0) : Nat) : Int) =
      iso.nominalFrames isHs req.sampleRateHz := by
    rw [← roundUp_eq hpos, Endpoint.nominalFrames, Int.natCast_div]
    congr 1
    omega
  have hfit' : (req.sampleRateHz.toNat / iso.clampedRate isHs +
      (if 0 < req.sampleRateHz.toNat % iso.clampedRate isHs then 1 else 0)) * d.stride ≤ iso.capacity := by
    rw [← hnominal, ← hstride_eq, ← Int.natCast_mul, Int.ofNat_le] at hfit
    exact hfit
  have hframes : 0 < req.sampleRateHz.toNat / iso.clampedRate isHs +
      (if 0 < req.sampleRateHz.toNat % iso.clampedRate isHs then 1 else 0) := by
    rw [← roundUp_eq hpos]
    exact Nat.div_pos (by omega) hpos
  have hcapacity : 0 < iso.capacity := Nat.lt_of_lt_of_le (Nat.mul_pos hframes (Nat.pos_of_ne_zero hstride)) hfit'
  simp only [Driver.pumpRefused, decide_eq_false_iff_not, not_or, Nat.not_lt]
  refine ⟨hstride, by omega, ?_⟩
  rw [hd, ← hclamped, Int.toNat_natCast, Nat.le_div_iff_mul_le (Nat.pos_of_ne_zero hstride)]
  exact hfit'

end Topology

/-- `selectAltSetting` runs into no undefined arithmetic; and for the setting it returns, its packet rate is the one of
the pump, whose capacity check passes with the packet size of that endpoint. -/
def SelectsSafely (config : Option ConfigDescriptor) (isHs : Bool) (req : StreamRequest) : Prop :=
  selectAltSetting config isHs req ≠ .error .undefined ∧
  ∀ f, selectAltSetting config isHs req = .ok f → ∃ c t alt s iso, config = some c ∧ c.topology = some t ∧
    alt ∈ c.altsettings ∧ alt.admits t.uacVersion req = some (s, iso) ∧ f = t.streamFormat isHs req alt s iso ∧
    iso.packetsPerSec isHs = some (f.microframesPerSec : Int) ∧
    ∀ (w : Nat) (d : Driver w), d.pb.format = f → d.stride ≠ 0 → d.pumpRefused iso.capacity = false

/-- The selection is safe exactly if every setting whose capacity it tests has a high-speed interval of at most 13, and
neither the rounding of the rate nor the packet size overflows. -/
theorem selectAltSetting_safe_iff (config : Option ConfigDescriptor) (isHs : Bool) (req : StreamRequest)
    (hrate : 0 < req.sampleRateHz) :
    SelectsSafely config isHs req ↔
      ∀ c t, config = some c → c.topology = some t → t.Sound isHs req c.altsettings := by
  have hfound : ∀ f, selectAltSetting config isHs req = .ok f → ∃ c t alt s iso, config = some c ∧ c.topology = some t ∧
      alt ∈ c.altsettings ∧ alt.admits t.uacVersion req = some (s, iso) ∧ f = t.streamFormat isHs req alt s iso ∧
      iso.packetsPerSec isHs = some (f.microframesPerSec : Int) ∧
      ∀ (w : Nat) (d : Driver w), d.pb.format = f → d.stride ≠ 0 → d.pumpRefused iso.capacity = false := by
    intro f h
    unfold selectAltSetting at h
    split at h
    · cases h
    rename_i c
    split at h
    · cases h
    rename_i t ht
    obtain ⟨alt, hmem, s, iso, hadmits, hfits, rfl⟩ := Topology.select_fits h
    obtain ⟨hpps, hpump⟩ := Topology.streamFormat_fits (t := t) hrate hadmits hfits
    exact ⟨c, t, alt, s, iso, rfl, ht, hmem, hadmits, rfl, hpps, hpump⟩
  constructor
  · rintro ⟨hdefined, -⟩ c t rfl ht
    refine (Topology.select_defined_iff hrate _).1 fun h => hdefined ?_
    simp only [selectAltSetting, ht]
    exact h
  · intro hsound
    refine ⟨fun h => ?_, hfound⟩
    unfold selectAltSetting at h
    split at h
    · cases h
    rename_i c
    split at h
    · cases h
    rename_i t ht
    exact (Topology.select_defined_iff hrate _).2 (hsound c t rfl ht) h

/-- A UAC2 stereo device with one streaming setting, of 192-byte packets at the interval `bInterval`. -/
def uac2Stereo (bInterval : UInt8) : ConfigDescriptor where
  interface :=
    [[⟨0, 0, 1, 1, [], [9, 0x24, 1, 0x00, 0x02, 0, 0, 0, 0]⟩],
      [⟨1, 0, 1, 2, [], []⟩,
        ⟨1, 1, 1, 2, [⟨0x01, 0x05, 192, bInterval, 0⟩],
          [16, 0x24, 1, 1, 0, 1, 0, 0, 0, 0, 2, 0, 0, 0, 0, 0, 6, 0x24, 2, 1, 2, 16]⟩]]

/-- A packet every millisecond. -/
theorem selectAltSetting_safe_iff_millisecond : SelectsSafely (some (uac2Stereo 4)) true ⟨48000, 16, 2, 0⟩ := by
  refine (selectAltSetting_safe_iff (some (uac2Stereo 4)) true ⟨48000, 16, 2, 0⟩ (by decide)).2 fun c t hc ht => ?_
  cases hc
  refine (Topology.select_defined_iff (by decide) _).1 fun h => ?_
  have herror : selectAltSetting (some (uac2Stereo 4)) true ⟨48000, 16, 2, 0⟩ = .error .undefined := by
    simp only [selectAltSetting, ht]
    exact h
  have hok : (selectAltSetting (some (uac2Stereo 4)) true ⟨48000, 16, 2, 0⟩).isOk = true := by decide
  rw [herror] at hok
  cases hok

/-- A packet every 2^13 microframes, a legal interval at high speed: the rate is zero, and divided by. -/
theorem selectAltSetting_divides_by_zero :
    (⟨0x01, 0x05, 192, 14, 0⟩ : Endpoint).packetsPerSec true = some 0 ∧
    selectAltSetting (some (uac2Stereo 14)) true ⟨48000, 16, 2, 0⟩ = .error .undefined ∧
    ¬ SelectsSafely (some (uac2Stereo 14)) true ⟨48000, 16, 2, 0⟩ := by
  have hundefined : selectAltSetting (some (uac2Stereo 14)) true ⟨48000, 16, 2, 0⟩ = .error .undefined := by rfl
  exact ⟨by decide, hundefined, fun h => h.1 hundefined⟩

end UacDriver

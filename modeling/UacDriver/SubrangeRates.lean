import UacDriver.DescriptorReads

/-!
# The rates of a subrange

`enumerateFormats` stands for a subrange of a GET_RANGE reply by its ends and, for a small step, the values between
them. The loop counts in 32 bits, its bound is a product in 32 bits, and a zero step ends it after the first round.
Which subranges are represented is decided by where the loop leaves the range: if the first step does not wrap, none
does and the rates are an arithmetic progression; if it does, the rates fall below the range.
-/

namespace UacDriver

open Runs

/-! ### The loop -/

section Loop

variable {lo hi step : UInt32}

/-- A round for a step that is not zero. -/
theorem subrangeRatesFrom_succ (hstep : step ≠ 0) (fuel : Nat) (r : UInt32) :
    subrangeRatesFrom lo hi step (fuel + 1) r = if r ≤ hi ∧ r - lo ≤ 256 * step then
      if r = hi then [r] else r :: subrangeRatesFrom lo hi step fuel (r + step) else [] := by
  rw [subrangeRatesFrom]
  simp only [ne_eq, hstep, not_false_eq_true, if_true, false_or]

theorem subrangeRates_zero (h : lo ≤ hi) : subrangeRates lo hi 0 = [lo] := by
  unfold subrangeRates
  rw [show (2 : Nat) ^ 32 = (2 ^ 32 - 1) + 1 from rfl, subrangeRatesFrom, UInt32.sub_self]
  rw [if_pos ⟨h, by decide⟩, if_pos (.inl rfl)]

theorem subrangeRates_self : subrangeRates lo lo step = [lo] := by
  unfold subrangeRates
  rw [show (2 : Nat) ^ 32 = (2 ^ 32 - 1) + 1 from rfl, subrangeRatesFrom, UInt32.sub_self]
  rw [if_pos ⟨UInt32.le_refl lo, UInt32.zero_le⟩, if_pos (.inr rfl)]

/-- The first round always adds the lower end. -/
theorem subrangeRates_eq_cons (hstep : step ≠ 0) (h : lo < hi) :
    subrangeRates lo hi step = lo :: subrangeRatesFrom lo hi step (2 ^ 32 - 1) (lo + step) := by
  refine (subrangeRatesFrom_succ hstep (2 ^ 32 - 1) lo).trans ?_
  rw [UInt32.sub_self, if_pos ⟨UInt32.le_of_lt h, UInt32.zero_le⟩, if_neg (UInt32.ne_of_lt h)]

theorem lo_mem_subrangeRates (h : lo ≤ hi) : lo ∈ subrangeRates lo hi step := by
  by_cases hstep : step = 0
  · rw [hstep, subrangeRates_zero h]
    exact List.mem_singleton_self lo
  rcases UInt32.le_iff_lt_or_eq.1 h with h | rfl
  · rw [subrangeRates_eq_cons hstep h]
    exact List.mem_cons_self
  · rw [subrangeRates_self]
    exact List.mem_singleton_self lo

theorem subrangeRatesFrom_le {fuel : Nat} {r x : UInt32} (h : x ∈ subrangeRatesFrom lo hi step fuel r) : x ≤ hi := by
  induction fuel generalizing r with
  | zero => exact absurd h List.not_mem_nil
  | succ fuel ih =>
    rw [subrangeRatesFrom] at h
    by_cases htest : r ≤ hi ∧ r - lo ≤ 256 * (if step ≠ 0 then step else 1)
    · rw [if_pos htest] at h
      split at h
      · rw [List.mem_singleton.1 h]
        exact htest.1
      · rcases List.mem_cons.1 h with rfl | h
        · exact htest.1
        · exact ih h
    · rw [if_neg htest] at h
      exact absurd h List.not_mem_nil

/-- The bound of the loop, as the product is computed. -/
theorem toNat_bound (step : UInt32) : (256 * step).toNat = 256 * step.toNat % 2 ^ 32 := UInt32.toNat_mul 256 step

/-! ### Without a wrap -/

/-- No step taken from inside the range wraps. -/
def StepsFit (lo hi step : UInt32) : Prop :=
  ∀ k : Nat, lo.toNat + k * step.toNat ≤ hi.toNat → lo.toNat + (k + 1) * step.toNat < 2 ^ 32

theorem StepsFit.of_first (hhi : hi.toNat < 2 ^ 31) (h : lo.toNat + step.toNat < 2 ^ 32) : StepsFit lo hi step := by
  intro k hk
  rw [Nat.add_mul, Nat.one_mul]
  cases k with
  | zero => omega
  | succ k =>
    rw [Nat.add_mul, Nat.one_mul] at hk ⊢
    omega

theorem StepsFit.toNat_next (h : StepsFit lo hi step) {r : UInt32} {k : Nat} (hr : r.toNat = lo.toNat + k * step.toNat)
    (hle : r ≤ hi) : (r + step).toNat = lo.toNat + (k + 1) * step.toNat := by
  have hle' : r.toNat ≤ hi.toNat := UInt32.le_iff_toNat_le.1 hle
  have hfit := h k (hr ▸ hle')
  rw [Nat.add_mul, Nat.one_mul] at hfit ⊢
  rw [UInt32.toNat_add, hr, Nat.mod_eq_of_lt (by omega)]
  omega

/-- The loop test, for a rate that the loop has reached in `k` steps. -/
theorem test_iff {r : UInt32} {k : Nat} (hr : r.toNat = lo.toNat + k * step.toNat) :
    (r ≤ hi ∧ r - lo ≤ 256 * step) ↔ r ≤ hi ∧ k * step.toNat ≤ 256 * step.toNat % 2 ^ 32 := by
  have hsub : (r - lo).toNat = k * step.toNat := by
    rw [UInt32.toNat_sub_of_le _ _ (UInt32.le_iff_toNat_le.2 (by omega)), hr]
    omega
  rw [UInt32.le_iff_toNat_le (a := r - lo), hsub, toNat_bound]

/-- The rates are an arithmetic progression. -/
theorem StepsFit.mem (hfit : StepsFit lo hi step) (hstep : step ≠ 0) {fuel k : Nat} {r x : UInt32}
    (hr : r.toNat = lo.toNat + k * step.toNat) (hx : x ∈ subrangeRatesFrom lo hi step fuel r) :
    ∃ j, x.toNat = lo.toNat + j * step.toNat ∧ j * step.toNat ≤ 256 * step.toNat % 2 ^ 32 := by
  induction fuel generalizing r k with
  | zero => exact absurd hx List.not_mem_nil
  | succ fuel ih =>
    rw [subrangeRatesFrom_succ hstep] at hx
    split at hx
    · rename_i htest
      obtain ⟨hle, hbound⟩ := (test_iff hr).1 htest
      split at hx
      · rw [List.mem_singleton.1 hx]
        exact ⟨k, hr, hbound⟩
      · rcases List.mem_cons.1 hx with rfl | hx
        · exact ⟨k, hr, hbound⟩
        · exact ih (hfit.toNat_next hr hle) hx
    · exact absurd hx List.not_mem_nil

theorem StepsFit.length_le (hfit : StepsFit lo hi step) (hstep : step ≠ 0) {fuel k : Nat} {r : UInt32}
    (hr : r.toNat = lo.toNat + k * step.toNat) : (subrangeRatesFrom lo hi step fuel r).length ≤ 257 - k := by
  have hpos : 0 < step.toNat := Nat.pos_of_ne_zero fun h => hstep (UInt32.toNat_inj.1 h)
  induction fuel generalizing r k with
  | zero => exact Nat.zero_le _
  | succ fuel ih =>
    rw [subrangeRatesFrom_succ hstep]
    split
    · rename_i htest
      obtain ⟨hle, hbound⟩ := (test_iff hr).1 htest
      have hk : k ≤ 256 := Nat.le_of_mul_le_mul_right (hbound.trans (Nat.mod_le _ _)) hpos
      split
      · rw [List.length_singleton]
        omega
      · have := ih (hfit.toNat_next hr hle)
        rw [List.length_cons]
        omega
    · exact Nat.zero_le _

/-- A progression that meets the upper end below the bound gets there. -/
theorem StepsFit.hi_mem (hfit : StepsFit lo hi step) (hstep : step ≠ 0) {n : Nat}
    (hn : hi.toNat = lo.toNat + n * step.toNat) (hbound : n * step.toNat ≤ 256 * step.toNat % 2 ^ 32) {fuel k : Nat}
    {r : UInt32} (hk : k ≤ n) (hfuel : n < fuel + k) (hr : r.toNat = lo.toNat + k * step.toNat) :
    hi ∈ subrangeRatesFrom lo hi step fuel r := by
  induction fuel generalizing r k with
  | zero => omega
  | succ fuel ih =>
    have hmul : k * step.toNat ≤ n * step.toNat := Nat.mul_le_mul_right _ hk
    have hle : r ≤ hi := UInt32.le_iff_toNat_le.2 (by omega)
    rw [subrangeRatesFrom_succ hstep, if_pos ((test_iff hr).2 ⟨hle, hmul.trans hbound⟩)]
    split
    · rename_i heq
      rw [heq]
      exact List.mem_singleton_self hi
    · rename_i hne
      have hlt : k < n := by
        refine Nat.lt_of_le_of_ne hk fun h => hne (UInt32.toNat_inj.1 ?_)
        rw [hr, hn, h]
      exact List.mem_cons_of_mem _ (ih hlt (by omega) (hfit.toNat_next hr hle))

/-! ### With a wrap -/

theorem subrangeRatesFrom_above (hstep : step ≠ 0) {r : UInt32} (h : hi < r) (fuel : Nat) :
    subrangeRatesFrom lo hi step fuel r = [] := by
  cases fuel with
  | zero => rfl
  | succ fuel => rw [subrangeRatesFrom_succ hstep, if_neg fun htest => UInt32.not_le.2 h htest.1]

theorem head_mem_of_mem (hstep : step ≠ 0) {fuel : Nat} {r x : UInt32}
    (h : x ∈ subrangeRatesFrom lo hi step fuel r) : r ∈ subrangeRatesFrom lo hi step fuel r := by
  cases fuel with
  | zero => exact absurd h List.not_mem_nil
  | succ fuel =>
    rw [subrangeRatesFrom_succ hstep] at h ⊢
    split
    · split
      · exact List.mem_singleton_self r
      · exact List.mem_cons_self
    · rename_i htest
      rw [if_neg htest] at h
      exact absurd h List.not_mem_nil

section Wrap

variable {s : Nat} (hs : step.toNat + s = 2 ^ 32) (hhi : hi.toNat < 2 ^ 31)

include hs

theorem toNat_add_of_wrap {r : UInt32} (h : s ≤ r.toNat) : (r + step).toNat = r.toNat - s := by
  have := r.toNat_lt
  rw [UInt32.toNat_add]
  omega

include hhi

/-- A rate below `s` is followed by one above the range. -/
theorem above_of_wrap (hsmall : s ≤ 2 ^ 31) {r : UInt32} (h : r.toNat < s) : hi < r + step := by
  rw [UInt32.lt_iff_toNat_lt, UInt32.toNat_add]
  omega

/-- The rates fall by `s` at a time. -/
theorem length_le_of_wrap (hstep : step ≠ 0) (hpos : 0 < s) (hsmall : s ≤ 2 ^ 31) (fuel : Nat) (r : UInt32) :
    (subrangeRatesFrom lo hi step fuel r).length ≤ r.toNat / s + 1 := by
  induction fuel generalizing r with
  | zero => exact Nat.zero_le _
  | succ fuel ih =>
    rw [subrangeRatesFrom_succ hstep]
    split
    · split
      · exact Nat.le_add_left 1 _
      · rw [List.length_cons]
        by_cases hr : r.toNat < s
        · rw [subrangeRatesFrom_above hstep (above_of_wrap hs hhi hsmall hr)]
          exact Nat.le_add_left 1 _
        · have hnext := ih (r + step)
          rw [toNat_add_of_wrap hs (by omega)] at hnext
          rw [Nat.div_eq_sub_div hpos (by omega)]
          omega
    · exact Nat.zero_le _

end Wrap

/-- The loop makes no more rounds than the bound is for, whatever the device says. -/
theorem subrangeRates_length_le (hle : lo ≤ hi) (hhi : hi.toNat < 2 ^ 31) : (subrangeRates lo hi step).length ≤ 257 := by
  by_cases hstep : step = 0
  · rw [hstep, subrangeRates_zero hle, List.length_singleton]
    omega
  have hpos : 0 < step.toNat := Nat.pos_of_ne_zero fun h => hstep (UInt32.toNat_inj.1 h)
  by_cases hfit : lo.toNat + step.toNat < 2 ^ 32
  · exact (StepsFit.of_first hhi hfit).length_le hstep (k := 0) (by omega)
  have hle' := UInt32.le_iff_toNat_le.1 hle
  have hlt := step.toNat_lt
  obtain ⟨s, hs⟩ : ∃ s, step.toNat + s = 2 ^ 32 := ⟨2 ^ 32 - step.toNat, by omega⟩
  by_cases hlarge : 2 ^ 24 ≤ s
  · have hlength : (subrangeRates lo hi step).length ≤ lo.toNat / s + 1 :=
      length_le_of_wrap hs hhi hstep (by omega) (by omega) (2 ^ 32) lo
    have hdiv : lo.toNat / s ≤ 2 ^ 31 / 2 ^ 24 := Nat.div_le_div (by omega) hlarge (by decide)
    exact hlength.trans (by omega)
  · -- the bound has wrapped with the step, and ends the loop after the first round
    rcases UInt32.le_iff_lt_or_eq.1 hle with hlt | rfl
    · rw [subrangeRates_eq_cons hstep hlt, List.length_cons]
      have hnil : subrangeRatesFrom lo hi step (2 ^ 32 - 1) (lo + step) = [] := by
        refine (subrangeRatesFrom_succ hstep (2 ^ 32 - 2) (lo + step)).trans (if_neg ?_)
        rintro ⟨-, htest⟩
        rw [UInt32.add_comm, UInt32.add_sub_cancel, UInt32.le_iff_toNat_le, toNat_bound] at htest
        omega
      rw [hnil, List.length_nil]
      omega
    · rw [subrangeRates_self, List.length_singleton]
      omega

/-- After a wrap the loop reaches the upper end, if at all, through a rate below the range. -/
theorem exists_below_of_wrap (hlt : lo < hi) (hhi : hi.toNat < 2 ^ 31) (hwrap : 2 ^ 32 ≤ lo.toNat + step.toNat)
    (hmem : hi ∈ subrangeRates lo hi step) : ∃ r ∈ subrangeRates lo hi step, 0 < r ∧ r < lo := by
  have hlt' := UInt32.lt_iff_toNat_lt.1 hlt
  have hstep' := step.toNat_lt
  have hstep : step ≠ 0 := by
    rintro rfl
    rw [UInt32.toNat_zero] at hwrap
    omega
  obtain ⟨s, hs⟩ : ∃ s, step.toNat + s = 2 ^ 32 := ⟨2 ^ 32 - step.toNat, by omega⟩
  have hnext : (lo + step).toNat = lo.toNat - s := toNat_add_of_wrap hs (by omega)
  rw [subrangeRates_eq_cons hstep hlt] at hmem ⊢
  have hmem : hi ∈ subrangeRatesFrom lo hi step (2 ^ 32 - 1) (lo + step) :=
    (List.mem_cons.1 hmem).resolve_left (UInt32.ne_of_lt hlt).symm
  refine ⟨lo + step, List.mem_cons_of_mem _ (head_mem_of_mem hstep hmem), ?_, ?_⟩
  · rw [UInt32.lt_iff_toNat_lt, UInt32.toNat_zero]
    by_contra hzero
    -- from zero the next step is above the range
    have habove := above_of_wrap hs hhi (by omega) (r := lo + step) (by omega)
    have hmem : hi ∈ subrangeRatesFrom lo hi step (2 ^ 32 - 2 + 1) (lo + step) := hmem
    rw [subrangeRatesFrom_succ hstep, subrangeRatesFrom_above hstep habove, ite_self] at hmem
    split at hmem
    · have := congrArg UInt32.toNat (List.mem_singleton.1 hmem)
      omega
    · exact absurd hmem List.not_mem_nil
  · rw [UInt32.lt_iff_toNat_lt]
    omega

/-- The rates that count are the ends and values of the progression exactly if the step divides the range and the
bound, as it is computed, covers it. -/
theorem subrangeRates_represent_iff (hle : lo ≤ hi) (hhi : hi.toNat < 2 ^ 31) :
    (hi ∈ subrangeRates lo hi step ∧ ∀ r ∈ subrangeRates lo hi step, 0 < r →
        lo ≤ r ∧ (r = hi ∨ ∃ k, r.toNat = lo.toNat + k * step.toNat)) ↔
      step.toNat ∣ hi.toNat - lo.toNat ∧ hi.toNat - lo.toNat ≤ 256 * step.toNat % 2 ^ 32 := by
  have hle' := UInt32.le_iff_toNat_le.1 hle
  rcases UInt32.le_iff_lt_or_eq.1 hle with hlt | rfl
  swap
  · rw [Nat.sub_self, subrangeRates_self]
    refine iff_of_true ⟨List.mem_singleton_self lo, fun r hr _ => ?_⟩ ⟨Nat.dvd_zero _, Nat.zero_le _⟩
    rw [List.mem_singleton.1 hr]
    exact ⟨UInt32.le_refl lo, .inl rfl⟩
  have hlt' := UInt32.lt_iff_toNat_lt.1 hlt
  constructor
  · rintro ⟨hmem, hrates⟩
    have hstep : step ≠ 0 := by
      rintro rfl
      rw [subrangeRates_zero hle] at hmem
      exact UInt32.ne_of_lt hlt (List.mem_singleton.1 hmem).symm
    have hfirst : lo.toNat + step.toNat < 2 ^ 32 := by
      by_contra hwrap
      obtain ⟨r, hr, hpos, hbelow⟩ := exists_below_of_wrap hlt hhi (by omega) hmem
      exact UInt32.not_le.2 hbelow (hrates r hr hpos).1
    obtain ⟨j, hj, hbound⟩ := (StepsFit.of_first hhi hfirst).mem hstep (k := 0) (by omega) hmem
    have hspan : hi.toNat - lo.toNat = j * step.toNat := by omega
    rw [hspan]
    exact ⟨Nat.dvd_mul_left _ _, hbound⟩
  · rintro ⟨⟨n, hn⟩, hbound⟩
    rw [Nat.mul_comm] at hn
    obtain ⟨hnpos, hspos⟩ : 0 < n ∧ 0 < step.toNat := by
      have := Nat.mul_ne_zero_iff.1 (show n * step.toNat ≠ 0 by omega)
      omega
    have hstep : step ≠ 0 := by
      rintro rfl
      exact absurd hspos (by decide)
    have hn' : n < 2 ^ 32 := by
      have := Nat.le_mul_of_pos_right n hspos
      omega
    have hstep' := Nat.le_mul_of_pos_left step.toNat hnpos
    have hfit : StepsFit lo hi step := .of_first hhi (by omega)
    refine ⟨hfit.hi_mem hstep (by omega) (hn ▸ hbound) (Nat.zero_le n) (by omega) (by omega), fun r hr _ => ?_⟩
    obtain ⟨j, hj, -⟩ := hfit.mem hstep (k := 0) (by omega) hr
    exact ⟨UInt32.le_iff_toNat_le.2 (by omega), .inr ⟨j, hj⟩⟩

end Loop

/-! ### The candidates -/

/-- The candidates `add` does not refuse. -/
def UsbFormatCandidate.Accepted (f : UsbFormatCandidate) : Prop :=
  ¬(f.sampleRateHz ≤ 0 ∨ (f.bitsPerSample ≠ 16 ∧ f.bitsPerSample ≠ 24 ∧ f.bitsPerSample ≠ 32) ∨
    (f.bytesPerSample ≠ 2 ∧ f.bytesPerSample ≠ 3 ∧ f.bytesPerSample ≠ 4) ∨ f.channels < 2)

/-- The candidate of a depth at a rate. -/
def Uac2Depth.at (d : Uac2Depth) (rate : Int) : UsbFormatCandidate := ⟨rate, d.bits, d.bytes, d.channels⟩

theorem mem_addCandidate_iff {result : List UsbFormatCandidate} {rate bits bytes channels : Int}
    {f : UsbFormatCandidate} :
    f ∈ addCandidate result rate bits bytes channels ↔
      f ∈ result ∨ (f = ⟨rate, bits, bytes, channels⟩ ∧ f.Accepted) := by
  unfold addCandidate
  split
  · rename_i hrefused
    refine (or_iff_left ?_).symm
    rintro ⟨rfl, haccepted⟩
    exact haccepted hrefused
  rename_i haccepted
  split
  · rename_i hdup
    refine (or_iff_left_of_imp ?_).symm
    rintro ⟨rfl, -⟩
    exact hdup
  · rw [List.mem_append, List.mem_singleton]
    refine or_congr_right ⟨?_, And.left⟩
    rintro rfl
    exact ⟨rfl, haccepted⟩

theorem mem_addDepths_iff {depths : List Uac2Depth} {result : List UsbFormatCandidate} {rate : Int}
    {f : UsbFormatCandidate} :
    f ∈ addDepths depths result rate ↔ f ∈ result ∨ ∃ d ∈ depths, f = d.at rate ∧ f.Accepted := by
  unfold addDepths
  exact mem_foldl (P := fun (d : Uac2Depth) f => f = d.at rate ∧ f.Accepted) (fun _ _ _ => mem_addCandidate_iff) depths
    result f

/-- The inner loop of `enumerateFormats`: what it adds for one subrange. -/
def addSubrange (depths : List Uac2Depth) (result : List UsbFormatCandidate) (range : UInt32 × UInt32 × UInt32) :
    List UsbFormatCandidate :=
  (subrangeRates range.1 range.2.1 range.2.2).foldl (fun result r => addDepths depths result r.toBitVec.toInt) result

theorem mem_addSubrange_iff {depths : List Uac2Depth} {result : List UsbFormatCandidate}
    {range : UInt32 × UInt32 × UInt32} {f : UsbFormatCandidate} :
    f ∈ addSubrange depths result range ↔ f ∈ result ∨
      ∃ r ∈ subrangeRates range.1 range.2.1 range.2.2, ∃ d ∈ depths, f = d.at r.toBitVec.toInt ∧ f.Accepted := by
  unfold addSubrange
  exact mem_foldl (P := fun (r : UInt32) f => ∃ d ∈ depths, f = d.at r.toBitVec.toInt ∧ f.Accepted)
    (fun _ _ _ => mem_addDepths_iff) _ result f

/-- A reply adds what its subranges add. -/
theorem mem_foldl_addSubrange_iff {depths : List Uac2Depth} {result : List UsbFormatCandidate}
    {ranges : List (UInt32 × UInt32 × UInt32)} {f : UsbFormatCandidate} :
    f ∈ ranges.foldl (addSubrange depths) result ↔
      f ∈ result ∨ ∃ range ∈ ranges, f ∈ addSubrange depths [] range := by
  refine mem_foldl (P := fun range f => f ∈ addSubrange depths [] range) (fun result range f => ?_) ranges result f
  rw [mem_addSubrange_iff, @mem_addSubrange_iff depths [], or_iff_right List.not_mem_nil]

namespace ConfigDescriptor

variable (c : ConfigDescriptor)

/-- The depths the second pass has kept for the clocks. -/
def uac2Depths : List Uac2Depth := (c.altsettings.foldl (offerAltsetting c.scanControl.uacVersion) ([], [])).2

/-- The replies to the GET_RANGE requests, in order. -/
def replies (getRange : Nat → Nat → List UInt8) : List (List UInt8) :=
  if 0x0200 ≤ c.scanControl.uacVersion ∧ c.scanControl.controlIface ≠ 0xFF then
    c.scanControl.clocks.zipIdx.map fun clock => (getRange clock.2 clock.1).take 256
  else []

/-- What is added for a subrange of a reply, whatever has been added before it. -/
def addedFor (range : UInt32 × UInt32 × UInt32) : List UsbFormatCandidate := addSubrange c.uac2Depths [] range

variable {c}

theorem accepted_of_mem_uac2Depths {d : Uac2Depth} (h : d ∈ c.uac2Depths) {rate : Int} (hrate : 0 < rate) :
    (d.at rate).Accepted := by
  refine List.foldlRecOn (motive := fun acc : List UsbFormatCandidate × List Uac2Depth =>
    ∀ d ∈ acc.2, (d.at rate).Accepted) c.altsettings _ (fun d hd => absurd hd List.not_mem_nil) ?_ d h
  intro acc hacc alt _ d hd
  unfold offerAltsetting at hd
  split at hd
  · exact hacc d hd
  dsimp only at hd
  split at hd
  · exact hacc d hd
  split at hd
  · exact hacc d hd
  rename_i hfields
  split at hd
  · exact hacc d hd
  split at hd
  · rcases List.mem_append.1 hd with hd | hd
    · exact hacc d hd
    · rw [List.mem_singleton.1 hd]
      unfold UsbFormatCandidate.Accepted Uac2Depth.at
      dsimp only
      omega
  · exact hacc d hd

theorem addRanges_eq (getRange : Nat → Nat → List UInt8) (depths : List Uac2Depth) (result : List UsbFormatCandidate) :
    addRanges c.scanControl getRange depths result =
      (c.replies getRange).foldl (fun result rng => (subranges rng).foldl (addSubrange depths) result) result := by
  have hreply (rng : List UInt8) (result : List UsbFormatCandidate) :
      (replyRates rng).foldl (fun result r => addDepths depths result r.toBitVec.toInt) result =
        (subranges rng).foldl (addSubrange depths) result := by
    have hrates := replyRates?_eq rng
    rw [replyRates?, subranges?_eq, Option.map_some, Option.some.injEq] at hrates
    rw [← hrates, List.foldl_flatMap]
    rfl
  unfold addRanges replies
  split
  · rw [List.foldl_map]
    simp only [hreply]
  · rfl

/-- What is added for a subrange is enumerated. -/
theorem mem_enumerateFormats_of_mem_addedFor {getRange : Nat → Nat → List UInt8} {rng : List UInt8}
    (hrng : rng ∈ c.replies getRange) {range : UInt32 × UInt32 × UInt32} (hrange : range ∈ subranges rng)
    {f : UsbFormatCandidate} (hf : f ∈ c.addedFor range) : f ∈ c.enumerateFormats getRange := by
  have hranges (result : List UsbFormatCandidate) : f ∈ addRanges c.scanControl getRange c.uac2Depths result := by
    rw [addRanges_eq]
    exact (mem_foldl (P := fun rng f => ∃ range ∈ subranges rng, f ∈ addSubrange c.uac2Depths [] range)
      (fun _ _ _ => mem_foldl_addSubrange_iff) _ result f).2 (.inr ⟨rng, hrng, range, hrange, hf⟩)
  unfold enumerateFormats
  dsimp only
  rw [if_neg]
  · exact hranges _
  · rintro ⟨-, hempty, -⟩
    have := hranges (c.altsettings.foldl (offerAltsetting c.scanControl.uacVersion) ([], [])).1
    exact absurd (hempty ▸ this) List.not_mem_nil

/-- The subrange from `lo` to `hi` is represented by what is added for it. -/
structure Represents (c : ConfigDescriptor) (getRange : Nat → Nat → List UInt8) (lo hi step : UInt32) : Prop where
  enumerated : ∀ f ∈ c.addedFor (lo, hi, step), f ∈ c.enumerateFormats getRange
  ends : ∀ d ∈ c.uac2Depths, d.at lo.toNat ∈ c.addedFor (lo, hi, step) ∧ d.at hi.toNat ∈ c.addedFor (lo, hi, step)
  within : ∀ f ∈ c.addedFor (lo, hi, step), lo.toNat ≤ f.sampleRateHz ∧ f.sampleRateHz ≤ hi.toNat
  stepped : ∀ f ∈ c.addedFor (lo, hi, step),
    f.sampleRateHz = hi.toNat ∨ ∃ k : Nat, f.sampleRateHz = lo.toNat + k * step.toNat
  iterations : (subrangeRates lo hi step).length ≤ 258

end ConfigDescriptor

theorem toInt_of_mem_subrangeRates {lo hi step r : UInt32} (hhi : hi.toNat < 2 ^ 31)
    (h : r ∈ subrangeRates lo hi step) : r.toBitVec.toInt = r.toNat := by
  have := UInt32.le_iff_toNat_le.1 (subrangeRatesFrom_le h)
  exact BitVec.toInt_eq_toNat_of_lt (by rw [UInt32.toNat_toBitVec]; omega)

/-- A rate that is not zero is added for every depth. -/
theorem ConfigDescriptor.mem_addedFor_iff {c : ConfigDescriptor} {lo hi step : UInt32} (hhi : hi.toNat < 2 ^ 31)
    {f : UsbFormatCandidate} :
    f ∈ c.addedFor (lo, hi, step) ↔ ∃ r ∈ subrangeRates lo hi step, ∃ d ∈ c.uac2Depths, f = d.at r.toNat ∧ 0 < r := by
  rw [addedFor, mem_addSubrange_iff, or_iff_right List.not_mem_nil]
  constructor
  · rintro ⟨r, hr, d, hd, rfl, haccepted⟩
    rw [toInt_of_mem_subrangeRates hhi hr] at haccepted ⊢
    refine ⟨r, hr, d, hd, rfl, ?_⟩
    have hrate : ¬((r.toNat : Int) ≤ 0) := fun h => haccepted (.inl h)
    rw [UInt32.lt_iff_toNat_lt, UInt32.toNat_zero]
    omega
  · rintro ⟨r, hr, d, hd, rfl, hpos⟩
    rw [UInt32.lt_iff_toNat_lt, UInt32.toNat_zero] at hpos
    refine ⟨r, hr, d, hd, ?_, accepted_of_mem_uac2Depths hd (by omega)⟩
    rw [toInt_of_mem_subrangeRates hhi hr]

/-- A subrange is represented exactly if its step divides it and 256 steps, counted in 32 bits, cover it. -/
theorem subrange_represented_iff {c : ConfigDescriptor} {getRange : Nat → Nat → List UInt8} (hdepths : c.uac2Depths ≠ [])
    {rng : List UInt8} (hrng : rng ∈ c.replies getRange) {lo hi step : UInt32} (hrange : (lo, hi, step) ∈ subranges rng)
    (hlo : 0 < lo) (hle : lo ≤ hi) (hhi : hi.toNat ≤ 2 ^ 31 - 1) :
    c.Represents getRange lo hi step ↔
      step.toNat ∣ hi.toNat - lo.toNat ∧ hi.toNat - lo.toNat ≤ 256 * step.toNat % 2 ^ 32 := by
  have hhi' : hi.toNat < 2 ^ 31 := by omega
  have hmem {f : UsbFormatCandidate} : f ∈ c.addedFor (lo, hi, step) ↔
      ∃ r ∈ subrangeRates lo hi step, ∃ d ∈ c.uac2Depths, f = d.at r.toNat ∧ 0 < r := ConfigDescriptor.mem_addedFor_iff hhi'
  rw [← subrangeRates_represent_iff hle hhi']
  constructor
  · intro h
    obtain ⟨d, hd⟩ := List.exists_mem_of_ne_nil _ hdepths
    constructor
    · obtain ⟨r, hr, d', -, heq, -⟩ := hmem.1 (h.ends d hd).2
      have hrate : (hi.toNat : Int) = r.toNat := congrArg UsbFormatCandidate.sampleRateHz heq
      rwa [← UInt32.toNat_inj.1 (Int.ofNat_inj.1 hrate)] at hr
    · intro r hr hpos
      have hadded : d.at r.toNat ∈ c.addedFor (lo, hi, step) := hmem.2 ⟨r, hr, d, hd, rfl, hpos⟩
      refine ⟨UInt32.le_iff_toNat_le.2 (Int.ofNat_le.1 (h.within _ hadded).1), ?_⟩
      obtain heq | ⟨k, hk⟩ := h.stepped _ hadded
      · exact .inl (UInt32.toNat_inj.1 (Int.ofNat_inj.1 heq))
      · have hk : (r.toNat : Int) = lo.toNat + k * step.toNat := hk
        exact .inr ⟨k, by exact_mod_cast hk⟩
  · rintro ⟨hhimem, hrates⟩
    refine
      { enumerated := fun f hf => ConfigDescriptor.mem_enumerateFormats_of_mem_addedFor hrng hrange hf
        ends := fun d hd => ?_, within := fun f hf => ?_, stepped := fun f hf => ?_
        iterations := (subrangeRates_length_le hle hhi').trans (by decide) }
    · have hhipos : 0 < hi := UInt32.lt_of_lt_of_le hlo hle
      exact ⟨hmem.2 ⟨lo, lo_mem_subrangeRates hle, d, hd, rfl, hlo⟩, hmem.2 ⟨hi, hhimem, d, hd, rfl, hhipos⟩⟩
    · obtain ⟨r, hr, d, -, rfl, hpos⟩ := hmem.1 hf
      have hbelow := UInt32.le_iff_toNat_le.1 (hrates r hr hpos).1
      have habove := UInt32.le_iff_toNat_le.1 (subrangeRatesFrom_le hr)
      exact ⟨Int.ofNat_le.2 hbelow, Int.ofNat_le.2 habove⟩
    · obtain ⟨r, hr, d, -, rfl, hpos⟩ := hmem.1 hf
      obtain rfl | ⟨k, hk⟩ := (hrates r hr hpos).2
      · exact .inl rfl
      · exact .inr ⟨k, by exact_mod_cast congrArg Nat.cast hk⟩

/-- A UAC2 stereo device with one clock, which replies with the subrange from 44.1 to 48 kHz at a step. -/
def stereoClock : ConfigDescriptor where
  interface :=
    [[⟨0, 0, 1, 1, [], [9, 0x24, 1, 0x00, 0x02, 0, 0, 0, 0, 8, 0x24, 0x0A, 9, 3, 7, 0, 0]⟩],
      [⟨1, 0, 1, 2, [], []⟩,
        ⟨1, 1, 1, 2, [⟨0x01, 0x05, 192, 1, 0⟩],
          [16, 0x24, 1, 1, 0, 1, 0, 0, 0, 0, 2, 0, 0, 0, 0, 0, 6, 0x24, 2, 1, 2, 16]⟩]]

def rangeReply (step₀ step₁ : UInt8) : List UInt8 := [1, 0, 0x44, 0xAC, 0, 0, 0x80, 0xBB, 0, 0, step₀, step₁, 0, 0]

/-- The two rates as a step of 3900. -/
theorem subrange_represented_iff_3900 :
    stereoClock.Represents (fun _ _ => rangeReply 0x3C 0x0F) 44100 48000 3900 := by
  have hrng : rangeReply 0x3C 0x0F ∈ stereoClock.replies fun _ _ => rangeReply 0x3C 0x0F := by decide
  have hrange : (44100, 48000, 3900) ∈ subranges (rangeReply 0x3C 0x0F) := by decide
  exact (subrange_represented_iff (by decide) hrng hrange (by decide) (by decide) (by decide)).2 (by decide)

/-- A continuous range, with a step of zero: its upper end is not enumerated. -/
theorem continuous_subrange_loses_end :
    rangeReply 0 0 ∈ stereoClock.replies (fun _ _ => rangeReply 0 0) ∧
      (44100, 48000, 0) ∈ subranges (rangeReply 0 0) ∧
      stereoClock.enumerateFormats (fun _ _ => rangeReply 0 0) = [⟨44100, 16, 2, 2⟩] ∧
      ¬ stereoClock.Represents (fun _ _ => rangeReply 0 0) 44100 48000 0 := by
  have hformats : stereoClock.enumerateFormats (fun _ _ => rangeReply 0 0) = [⟨44100, 16, 2, 2⟩] := by decide
  refine ⟨by decide, by decide, hformats, fun h => ?_⟩
  have hdepths : stereoClock.uac2Depths = [⟨16, 2, 2⟩] := rfl
  have hend := h.enumerated _ (h.ends ⟨16, 2, 2⟩ (hdepths ▸ List.mem_singleton_self _)).2
  rw [hformats] at hend
  exact absurd hend (by decide)

end UacDriver

import Mathlib.Data.List.Basic
import Mathlib.Data.Nat.ModEq
import Mathlib.Data.Nat.Prime.Basic
import Mathlib.Tactic.Ring
import UacDriver.Scheduling

/-!
# Configuration descriptors

The two parsers of the configuration-descriptor tree: `enumerateFormats`, which lists what a device offers before
anything is claimed, and `selectAltSetting`, which looks for the alternate setting of a request. A descriptor is
a pointer into the class-specific bytes with the length byte found there, so that a read past the length is a read
of the bytes that follow.
-/

namespace UacDriver

def USB_CLASS_AUDIO : UInt8 := 0x01
def SUBCLASS_AUDIOCONTROL : UInt8 := 0x01
def SUBCLASS_AUDIOSTREAM : UInt8 := 0x02
def CS_INTERFACE : Nat := 0x24
def AC_HEADER : Nat := 0x01
def AC_INPUT_TERMINAL : Nat := 0x02
def AC_OUTPUT_TERMINAL : Nat := 0x03
def AC_CLOCK_SOURCE : Nat := 0x0A
def AC_CLOCK_SELECTOR : Nat := 0x0B
def AC_CLOCK_MULTIPLIER : Nat := 0x0C
def AS_GENERAL : Nat := 0x01
def AS_FORMAT_TYPE : Nat := 0x02
def FORMAT_TYPE_I : Nat := 0x01
def LIBUSB_TRANSFER_TYPE_ISOCHRONOUS : UInt8 := 1

/-! ### The tree -/

/-- `libusb_endpoint_descriptor`. -/
structure Endpoint where
  bEndpointAddress : UInt8
  bmAttributes : UInt8
  wMaxPacketSize : UInt16
  bInterval : UInt8
  bSynchAddress : UInt8 := 0

/-- `libusb_interface_descriptor`: one alternate setting of an interface. -/
structure InterfaceDescriptor where
  bInterfaceNumber : UInt8
  bAlternateSetting : UInt8
  bInterfaceClass : UInt8
  bInterfaceSubClass : UInt8
  endpoint : List Endpoint := []
  extra : List UInt8 := []

/-- `libusb_config_descriptor`: the interfaces, each with its alternate settings. -/
structure ConfigDescriptor where
  interface : List (List InterfaceDescriptor)

/-- The alternate settings in the order both parsers visit them. -/
def ConfigDescriptor.altsettings (c : ConfigDescriptor) : List InterfaceDescriptor := c.interface.flatten

/-- A pointer into the class-specific bytes and the length read there. -/
structure Descriptor where
  p : List UInt8
  len : Nat

namespace Descriptor

/-- `p[k]`. -/
def byte (d : Descriptor) (k : Nat) : Nat := (d.p.getD k 0).toNat

/-- `rd24(p + k)`. -/
def rd24 (d : Descriptor) (k : Nat) : Nat := d.byte k ||| d.byte (k + 1) <<< 8 ||| d.byte (k + 2) <<< 16

def isClassDescriptor (d : Descriptor) (descType subtype : Nat) : Bool :=
  3 ≤ d.len && d.byte 1 == descType && d.byte 2 == subtype

/-- A Type-I `FORMAT_TYPE`: the descriptor both parsers look for in a streaming alternate setting. -/
def isFormatTypeI (d : Descriptor) : Bool :=
  d.isClassDescriptor CS_INTERFACE AS_FORMAT_TYPE && 4 ≤ d.len && d.byte 3 == FORMAT_TYPE_I

theorem byte_lt (d : Descriptor) (k : Nat) : d.byte k < 2 ^ 8 := UInt8.toNat_lt _

theorem rd24_lt (d : Descriptor) (k : Nat) : d.rd24 k < 2 ^ 24 := by
  have h₀ := d.byte_lt k
  have h₁ := d.byte_lt (k + 1)
  have h₂ := d.byte_lt (k + 2)
  refine Nat.or_lt_two_pow (Nat.or_lt_two_pow (by omega) ?_) ?_
  · rw [Nat.shiftLeft_eq]
    omega
  · rw [Nat.shiftLeft_eq]
    omega

end Descriptor

/-- The loop of `walkExtra` from the byte it has reached; its callbacks never ask to stop. -/
def walkExtraFrom : Nat → List UInt8 → List Descriptor
  | 0, _ => []
  | fuel + 1, extra =>
    if extra.length < 2 then []
    else
      let len := (extra.getD 0 0).toNat
      if len < 2 ∨ extra.length < len then []
      else ⟨extra, len⟩ :: walkExtraFrom fuel (extra.drop len)

/-- The descriptors of an `extra` blob. A round moves on by two bytes at least, so the length bounds the rounds. -/
def walkExtra (extra : List UInt8) : List Descriptor := walkExtraFrom extra.length extra

theorem walkExtraFrom_eq (fuel : Nat) (extra : List UInt8) (h : extra.length ≤ fuel) :
    walkExtraFrom fuel extra = walkExtra extra := by
  unfold walkExtra
  induction fuel using Nat.strongRecOn generalizing extra with
  | ind fuel ih =>
    cases fuel with
    | zero =>
      rw [Nat.le_zero.1 h]
    | succ fuel =>
      by_cases hlt : extra.length < 2
      · cases hn : extra.length with
        | zero => simp only [walkExtraFrom, hlt, if_true]
        | succ n => simp only [walkExtraFrom, hlt, if_true]
      · obtain ⟨n, hn⟩ : ∃ n, extra.length = n + 1 := ⟨extra.length - 1, by omega⟩
        rw [hn]
        simp only [walkExtraFrom, hlt, if_false]
        split
        · rfl
        · rename_i hlen
          have hdrop : (extra.drop (extra.getD 0 0).toNat).length < n + 1 := by
            rw [List.length_drop]
            omega
          -- both rounds leave the same bytes, and less of them than either fuel
          rw [ih fuel (Nat.lt_succ_self _) _ (by omega), ih n (by omega) _ (by omega)]

namespace InterfaceDescriptor

def isAudioControl (alt : InterfaceDescriptor) : Bool :=
  alt.bInterfaceClass == USB_CLASS_AUDIO && alt.bInterfaceSubClass == SUBCLASS_AUDIOCONTROL

/-- A streaming alternate setting that is not the idle one. -/
def isAudioStream (alt : InterfaceDescriptor) : Bool :=
  alt.bInterfaceClass == USB_CLASS_AUDIO && alt.bInterfaceSubClass == SUBCLASS_AUDIOSTREAM &&
    alt.bAlternateSetting != 0

end InterfaceDescriptor

namespace Endpoint

def isIsochronous (ep : Endpoint) : Bool := ep.bmAttributes &&& 3 == LIBUSB_TRANSFER_TYPE_ISOCHRONOUS

def isIn (ep : Endpoint) : Bool := ep.bEndpointAddress &&& 0x80 != 0

/-- Bits 5:4 of the attributes: 0 for data, 1 for feedback. -/
def usage (ep : Endpoint) : UInt8 := (ep.bmAttributes >>> 4) &&& 3

def isOutData (ep : Endpoint) : Bool := ep.isIsochronous && !ep.isIn && ep.usage == 0

def isFeedback (ep : Endpoint) : Bool := ep.isIsochronous && ep.isIn && ep.usage == 1

end Endpoint

/-! ### `enumerateFormats` -/

structure UsbFormatCandidate where
  sampleRateHz : Int
  bitsPerSample : Int
  bytesPerSample : Int
  channels : Int
  deriving DecidableEq

/-- What the first pass collects from the AudioControl alternate settings. -/
structure ControlScan where
  uacVersion : Nat := 0x0200
  controlIface : UInt8 := 0xFF
  clocks : List Nat := []

def ControlScan.descriptor (s : ControlScan) (d : Descriptor) : ControlScan :=
  if d.isClassDescriptor CS_INTERFACE AC_HEADER && 5 ≤ d.len then
    { s with uacVersion := d.byte 3 ||| d.byte 4 <<< 8 }
  else if d.isClassDescriptor CS_INTERFACE AC_CLOCK_SOURCE && 4 ≤ d.len then
    { s with clocks := s.clocks ++ [d.byte 3] }
  else s

def ControlScan.altsetting (s : ControlScan) (alt : InterfaceDescriptor) : ControlScan :=
  if alt.isAudioControl then
    (walkExtra alt.extra).foldl ControlScan.descriptor { s with controlIface := alt.bInterfaceNumber }
  else s

def ConfigDescriptor.scanControl (c : ConfigDescriptor) : ControlScan := c.altsettings.foldl ControlScan.altsetting {}

/-- The `add` lambda: a candidate is appended once, when its numbers make sense. -/
def addCandidate (result : List UsbFormatCandidate) (rate bits bytes channels : Int) : List UsbFormatCandidate :=
  if rate ≤ 0 ∨ (bits ≠ 16 ∧ bits ≠ 24 ∧ bits ≠ 32) ∨ (bytes ≠ 2 ∧ bytes ≠ 3 ∧ bytes ≠ 4) ∨ channels < 2 then result
  else if ⟨rate, bits, bytes, channels⟩ ∈ result then result
  else result ++ [⟨rate, bits, bytes, channels⟩]

structure Uac2Depth where
  bits : Nat
  bytes : Nat
  channels : Nat

/-- The locals of the second pass for one alternate setting. -/
structure OfferScan where
  channels : Nat := 0
  bits : Nat := 0
  bytes : Nat := 0
  fmt : Option Descriptor := none

def OfferScan.descriptor (uacVersion : Nat) (s : OfferScan) (d : Descriptor) : OfferScan :=
  let s := if d.isClassDescriptor CS_INTERFACE AS_GENERAL && 0x0200 ≤ uacVersion && 16 ≤ d.len then
      { s with channels := d.byte 10 }
    else s
  if d.isClassDescriptor CS_INTERFACE AS_FORMAT_TYPE && 6 ≤ d.len && d.byte 3 == FORMAT_TYPE_I then
    if 0x0200 ≤ uacVersion then { s with fmt := some d, bytes := d.byte 4, bits := d.byte 5 }
    else if 8 ≤ d.len then { fmt := some d, channels := d.byte 4, bytes := d.byte 5, bits := d.byte 6 }
    else { s with fmt := some d }
  else s

def InterfaceDescriptor.scanOffer (alt : InterfaceDescriptor) (uacVersion : Nat) : OfferScan :=
  (walkExtra alt.extra).foldl (OfferScan.descriptor uacVersion) {}

/-- The rates of a UAC1 `FORMAT_TYPE`: the two ends of a continuous range, or the discrete list as far as it fits. -/
def Descriptor.uac1Rates (fmt : Descriptor) : List Nat :=
  let kind := fmt.byte 7
  if kind = 0 ∧ 14 ≤ fmt.len then
    let lo := fmt.rd24 8
    let hi := fmt.rd24 11
    if hi ≠ lo then [lo, hi] else [lo]
  else ((List.range kind).takeWhile fun k => 8 + 3 * k + 3 ≤ fmt.len).map fun k => fmt.rd24 (8 + 3 * k)

/-- One alternate setting of the second pass: a UAC2 depth is kept until the clocks have been asked, a UAC1 format
is added with the rates of its own descriptor. -/
def offerAltsetting (uacVersion : Nat) (acc : List UsbFormatCandidate × List Uac2Depth) (alt : InterfaceDescriptor) :
    List UsbFormatCandidate × List Uac2Depth :=
  if !alt.isAudioStream then acc
  else
    let s := alt.scanOffer uacVersion
    match s.fmt with
    | none => acc
    | some fmt =>
      if s.channels < 2 ∨ (s.bits ≠ 16 ∧ s.bits ≠ 24 ∧ s.bits ≠ 32) ∨ s.bytes < (s.bits + 7) / 8 ∨ s.bytes > 4 then acc
      else if (alt.endpoint.find? Endpoint.isOutData).isNone then acc
      else if 0x0200 ≤ uacVersion then (acc.1, acc.2 ++ [⟨s.bits, s.bytes, s.channels⟩])
      else (fmt.uac1Rates.foldl (fun result (rate : Nat) => addCandidate result rate s.bits s.bytes s.channels) acc.1, acc.2)

/-- `add` at one rate for every depth, in order. -/
def addDepths (depths : List Uac2Depth) (result : List UsbFormatCandidate) (rate : Int) : List UsbFormatCandidate :=
  depths.foldl (fun result d => addCandidate result rate d.bits d.bytes d.channels) result

/-- The rates one subrange adds, from the rate the loop has reached. -/
def subrangeRatesFrom (lo hi step : UInt32) : Nat → UInt32 → List UInt32
  | 0, _ => []
  | fuel + 1, r =>
    if r ≤ hi ∧ r - lo ≤ 256 * (if step ≠ 0 then step else 1) then
      if step = 0 ∨ r = hi then [r]
      else r :: subrangeRatesFrom lo hi step fuel (r + step)
    else []

/-- The rates of a subrange; `subrangeRatesFrom_fuel` says that no more rounds are ever needed. -/
def subrangeRates (lo hi step : UInt32) : List UInt32 := subrangeRatesFrom lo hi step (2 ^ 32) lo

/-- The multiples of `s` modulo `N` do not all stay below the multiple by `c`: its distance to `N` would be the
smallest of them, and then divide `s`. -/
theorem exists_mul_mod_gt {N s c : Nat} (hN : ∀ q, N.Coprime (c * q + 1)) (hs : 0 < s) (hs' : s < N) :
    ∃ k, c * s % N < k * s % N := by
  by_contra hle
  have hmax : ∀ k, k * s % N ≤ c * s % N := fun k => Nat.le_of_not_lt fun h => hle ⟨k, h⟩
  have hlt : c * s % N < N := Nat.mod_lt _ (by omega)
  obtain ⟨g, hg⟩ : ∃ g, c * s % N + g = N := ⟨N - c * s % N, by omega⟩
  have hfirst : s ≤ c * s % N := by
    have h := hmax 1
    rwa [Nat.one_mul, Nat.mod_eq_of_lt hs'] at h
  -- going `q` times down by `g` is going up by the multiple, modulo `N`
  have hdown : ∀ q h, s = g * q + h → (1 + c * q) * s ≡ h [MOD N] := by
    intro q h hsq
    calc (1 + c * q) * s = s + c * s * q := by ring
      _ ≡ s + c * s % N * q [MOD N] := Nat.ModEq.add_left _ ((Nat.mod_modEq _ _).symm.mul_right q)
      _ = h + (c * s % N + g) * q := by rw [Nat.add_mul]; omega
      _ = h + N * q := by rw [hg]
      _ ≡ h [MOD N] := Nat.add_mul_mod_self_left h N q
  have hdiv : s % g = 0 := by
    by_contra hne
    have hr : s % g < g := Nat.mod_lt _ (by omega)
    have habove : (1 + c * (s / g) + c) * s ≡ s % g + c * s % N [MOD N] := by
      rw [Nat.add_mul _ c]
      exact (hdown _ _ (Nat.div_add_mod s g).symm).add (Nat.mod_modEq _ _).symm
    have hle := hmax (1 + c * (s / g) + c)
    rw [habove, Nat.mod_eq_of_lt (by omega)] at hle
    omega
  obtain ⟨q, rfl⟩ : g ∣ s := Nat.dvd_of_mod_eq_zero hdiv
  have hdvd : N ∣ g * (c * q + 1) := by
    have h : c * (g * q) + g ≡ 0 [MOD N] := by
      calc c * (g * q) + g ≡ c * (g * q) % N + g [MOD N] := Nat.ModEq.add_right _ (Nat.mod_modEq _ _).symm
        _ = N := hg
        _ ≡ 0 [MOD N] := by simp [Nat.ModEq]
    have h := Nat.modEq_zero_iff_dvd.1 h
    have he : c * (g * q) + g = g * (c * q + 1) := by ring
    rwa [he] at h
  have := Nat.le_of_dvd (by omega) ((hN q).dvd_of_dvd_mul_right hdvd)
  omega

/-- The loop test of a subrange, or its break, ends the loop at `r`. -/
def subrangeEnds (lo hi step r : UInt32) : Prop :=
  ¬(r ≤ hi ∧ r - lo ≤ 256 * (if step ≠ 0 then step else 1)) ∨ step = 0 ∨ r = hi

theorem subrangeRatesFrom_eq_of_ends {lo hi step : UInt32} {fuel fuel' k : Nat} {r : UInt32} (hk : k < fuel)
    (hk' : k < fuel') (hend : subrangeEnds lo hi step (r + .ofNat k * step)) :
    subrangeRatesFrom lo hi step fuel r = subrangeRatesFrom lo hi step fuel' r := by
  induction fuel generalizing fuel' k r with
  | zero => omega
  | succ fuel ih =>
    obtain ⟨fuel', rfl⟩ : ∃ n, fuel' = n + 1 := ⟨fuel' - 1, by omega⟩
    unfold subrangeRatesFrom
    by_cases hloop : r ≤ hi ∧ r - lo ≤ 256 * (if step ≠ 0 then step else 1)
    · by_cases hbreak : step = 0 ∨ r = hi
      · rw [if_pos hloop, if_pos hloop, if_pos hbreak, if_pos hbreak]
      · rw [if_pos hloop, if_pos hloop, if_neg hbreak, if_neg hbreak]
        cases k with
        | zero =>
          have hend : subrangeEnds lo hi step r := by simpa using hend
          obtain hend | hend := hend
          · exact absurd hloop hend
          · exact absurd hend hbreak
        | succ k =>
          have hnext : r + .ofNat (k + 1) * step = r + step + .ofNat k * step := by
            rw [UInt32.ofNat_add, UInt32.add_mul, UInt32.add_assoc, UInt32.add_comm (.ofNat k * step)]
            simp
          rw [hnext] at hend
          rw [ih (Nat.lt_of_succ_lt_succ hk) (Nat.lt_of_succ_lt_succ hk') hend]
    · rw [if_neg hloop, if_neg hloop]

theorem exists_subrangeEnds (lo hi step : UInt32) : ∃ k < 2 ^ 32, subrangeEnds lo hi step (lo + .ofNat k * step) := by
  by_cases hstep : step = 0
  · exact ⟨0, by decide, .inr (.inl hstep)⟩
  · have hpos : 0 < step.toNat := Nat.pos_of_ne_zero fun h => hstep (UInt32.toNat_inj.1 h)
    have hodd : ∀ q, (2 ^ 32).Coprime (256 * q + 1) := fun q =>
      Nat.Coprime.pow_left 32 (Nat.coprime_two_left.2 ⟨128 * q, by omega⟩)
    obtain ⟨k, hk⟩ := exists_mul_mod_gt hodd hpos step.toNat_lt
    refine ⟨k % 2 ^ 32, Nat.mod_lt _ (by decide), .inl fun h => ?_⟩
    have hle := UInt32.le_iff_toNat_le.1 h.2
    rw [if_pos hstep, UInt32.add_comm, UInt32.add_sub_cancel] at hle
    simp only [UInt32.toNat_mul, UInt32.toNat_ofNat, UInt32.toNat_ofNat', Nat.mod_mod, Nat.mod_mul_mod] at hle
    omega

theorem subrangeRatesFrom_fuel (lo hi step : UInt32) {fuel : Nat} (h : 2 ^ 32 ≤ fuel) :
    subrangeRatesFrom lo hi step fuel lo = subrangeRates lo hi step := by
  obtain ⟨k, hk, hend⟩ := exists_subrangeEnds lo hi step
  exact subrangeRatesFrom_eq_of_ends (Nat.lt_of_lt_of_le hk h) hk hend

/-- A little-endian 32-bit field of a reply. -/
def rd32 (rng : List UInt8) (k : Nat) : UInt32 :=
  (rng.getD k 0).toUInt32 ||| (rng.getD (k + 1) 0).toUInt32 <<< 8 ||| (rng.getD (k + 2) 0).toUInt32 <<< 16 |||
    (rng.getD (k + 3) 0).toUInt32 <<< 24

/-- The rates of a GET_RANGE reply, subrange by subrange. A failed request is an empty reply. -/
def replyRates (rng : List UInt8) : List UInt32 :=
  if rng.length < 2 then []
  else
    let n := (rng.getD 0 0).toNat ||| (rng.getD 1 0).toNat <<< 8
    ((List.range n).takeWhile fun k => 2 + 12 * (k + 1) ≤ rng.length).flatMap fun k =>
      subrangeRates (rd32 rng (2 + 12 * k)) (rd32 rng (2 + 12 * k + 4)) (rd32 rng (2 + 12 * k + 8))

def kCommonRates : List Int := [44100, 48000, 88200, 96000, 176400, 192000]

/-- The clocks of a UAC2 device, asked one after the other; `getRange k id` is the reply to the request number `k`,
to the clock `id`. -/
def addRanges (control : ControlScan) (getRange : Nat → Nat → List UInt8) (depths : List Uac2Depth)
    (result : List UsbFormatCandidate) : List UsbFormatCandidate :=
  if 0x0200 ≤ control.uacVersion ∧ control.controlIface ≠ 0xFF then
    control.clocks.zipIdx.foldl (fun result clock =>
      (replyRates ((getRange clock.2 clock.1).take 256)).foldl
        (fun result r => addDepths depths result r.toBitVec.toInt) result) result
  else result

/-- The generic path of `enumerateFormats` on the descriptor tree. -/
def ConfigDescriptor.enumerateFormats (c : ConfigDescriptor) (getRange : Nat → Nat → List UInt8) :
    List UsbFormatCandidate :=
  let control := c.scanControl
  let (result, uac2Depths) := c.altsettings.foldl (offerAltsetting control.uacVersion) ([], [])
  let result := addRanges control getRange uac2Depths result
  if 0x0200 ≤ control.uacVersion ∧ result = [] ∧ uac2Depths ≠ [] then
    kCommonRates.foldl (addDepths uac2Depths) result
  else result

/-- `enumerateFormats` of a driver: `config` is the descriptor tree libusb returns, if it returns one. -/
def enumerateFormats (device line6Profile : Bool) (config : Option ConfigDescriptor)
    (getRange : Nat → Nat → List UInt8) : List UsbFormatCandidate :=
  if !device then []
  else if line6Profile then [⟨44100, 16, 2, 2⟩]
  else match config with
    | none => []
    | some c => c.enumerateFormats getRange

/-! ### `selectAltSetting` -/

structure TermClock where
  termId : Nat
  clockId : Nat

structure ClockEntity where
  id : Nat
  subtype : Nat
  baseId : Nat

/-- What the first pass takes from the AudioControl alternate setting. -/
structure Topology where
  controlIface : UInt8 := 0xFF
  uacVersion : Nat := 0x0200
  terminals : List TermClock := []
  clockEntities : List ClockEntity := []

def Topology.descriptor (t : Topology) (d : Descriptor) : Topology :=
  if d.isClassDescriptor CS_INTERFACE AC_HEADER && 5 ≤ d.len then
    { t with uacVersion := d.byte 3 ||| d.byte 4 <<< 8 }
  else if d.isClassDescriptor CS_INTERFACE AC_CLOCK_SOURCE && 4 ≤ d.len then
    { t with clockEntities := t.clockEntities ++ [⟨d.byte 3, AC_CLOCK_SOURCE, 0⟩] }
  else if d.isClassDescriptor CS_INTERFACE AC_CLOCK_SELECTOR && 6 ≤ d.len then
    { t with clockEntities := t.clockEntities ++ [⟨d.byte 3, AC_CLOCK_SELECTOR, d.byte 5⟩] }
  else if d.isClassDescriptor CS_INTERFACE AC_CLOCK_MULTIPLIER && 5 ≤ d.len then
    { t with clockEntities := t.clockEntities ++ [⟨d.byte 3, AC_CLOCK_MULTIPLIER, d.byte 4⟩] }
  else if d.isClassDescriptor CS_INTERFACE AC_INPUT_TERMINAL && 8 ≤ d.len then
    { t with terminals := t.terminals ++ [⟨d.byte 3, d.byte 7⟩] }
  else if d.isClassDescriptor CS_INTERFACE AC_OUTPUT_TERMINAL && 9 ≤ d.len then
    { t with terminals := t.terminals ++ [⟨d.byte 3, d.byte 8⟩] }
  else t

/-- The first pass stops at the first AudioControl alternate setting; without one there is nothing to select. -/
def ConfigDescriptor.topology (c : ConfigDescriptor) : Option Topology :=
  (c.altsettings.find? InterfaceDescriptor.isAudioControl).map fun alt =>
    (walkExtra alt.extra).foldl Topology.descriptor { controlIface := alt.bInterfaceNumber }

/-- The arguments of `selectAltSetting`; a subslot size of zero asks for any. -/
structure StreamRequest where
  sampleRateHz : Int
  bitsPerSample : Int
  channels : Int
  bytesPerSample : Int := 0

/-- `static_cast<uint32_t>`. -/
def asUint32 (x : Int) : Nat := (x % 2 ^ 32).toNat

/-- The locals of the second pass for one alternate setting. -/
structure AltScan where
  altChannels : Nat := 0
  altBits : Nat := 0
  altSubslot : Nat := 0
  altTerminalLink : Nat := 0
  rateSupportedByDescriptor : Bool

/-- The walk over the sample-frequency table of a UAC1 `FORMAT_TYPE`; `supported` is the verdict so far, which a
truncated continuous range leaves alone. -/
def Descriptor.uac1Supports (d : Descriptor) (sampleRateHz : Int) (supported : Bool) : Bool :=
  let kind := d.byte 7
  if kind = 0 ∧ 14 ≤ d.len then d.rd24 8 ≤ asUint32 sampleRateHz && asUint32 sampleRateHz ≤ d.rd24 11
  else if 0 < kind then
    ((List.range kind).takeWhile fun k => 8 + k * 3 + 3 ≤ d.len).any fun k => d.rd24 (8 + k * 3) == sampleRateHz
  else supported

/-- The inventory of rates the walk keeps for the interface is left out: it decides nothing here. -/
def AltScan.descriptor (uacVersion : Nat) (sampleRateHz : Int) (s : AltScan) (d : Descriptor) : AltScan :=
  if d.isClassDescriptor CS_INTERFACE AS_GENERAL then
    if 0x0200 ≤ uacVersion ∧ 16 ≤ d.len then { s with altTerminalLink := d.byte 3, altChannels := d.byte 10 } else s
  else if d.isFormatTypeI then
    if 0x0200 ≤ uacVersion then
      if 6 ≤ d.len then { s with altSubslot := d.byte 4, altBits := d.byte 5 } else s
    else if 7 ≤ d.len then
      { s with
        altChannels := d.byte 4, altSubslot := d.byte 5, altBits := d.byte 6
        rateSupportedByDescriptor := if 8 ≤ d.len then d.uac1Supports sampleRateHz s.rateSupportedByDescriptor
          else s.rateSupportedByDescriptor }
    else s
  else s

def InterfaceDescriptor.scanAlt (alt : InterfaceDescriptor) (uacVersion : Nat) (sampleRateHz : Int) : AltScan :=
  (walkExtra alt.extra).foldl (AltScan.descriptor uacVersion sampleRateHz)
    { rateSupportedByDescriptor := 0x0200 ≤ uacVersion }

/-- The tests of `selectAltSetting` on one alternate setting before the packet capacity is looked at. What they
leave is the scan and the data endpoint. -/
def InterfaceDescriptor.admits (alt : InterfaceDescriptor) (uacVersion : Nat) (req : StreamRequest) :
    Option (AltScan × Endpoint) :=
  if !alt.isAudioStream then none
  else
    let s := alt.scanAlt uacVersion req.sampleRateHz
    if 0 < req.bytesPerSample ∧ s.altSubslot ≠ req.bytesPerSample then none
    else if s.altChannels ≠ req.channels ∨ s.altBits ≠ req.bitsPerSample then none
    else if !s.rateSupportedByDescriptor then none
    else (alt.endpoint.find? Endpoint.isOutData).map fun iso => (s, iso)

/-- The value of an `int` expression, if it has one. -/
def checkedInt (x : Int) : Option Int := if -2 ^ 31 ≤ x ∧ x < 2 ^ 31 then some x else none

/-- The packet-capacity test. `none` when the arithmetic of the source is undefined: a shift by 31 or more, a
division by zero or an overflow. -/
def Endpoint.fits (iso : Endpoint) (isHs : Bool) (req : StreamRequest) (altSubslot : Nat) : Option Bool := do
  let bInterval : Int := iso.bInterval.toNat
  let microframesPerInterval ←
    if isHs then
      let shift := if 0 < bInterval then bInterval - 1 else 0
      if shift < 31 then some ((2 : Int) ^ shift.toNat) else none
    else some bInterval
  let microframesPerSecond : Int := if isHs then 8000 else 1000
  let packetsPerSec :=
    if 0 < microframesPerInterval then microframesPerSecond / microframesPerInterval else microframesPerSecond
  let frameStride ← checkedInt ((if altSubslot ≠ 0 then (altSubslot : Int) else req.bitsPerSample.tdiv 8) * req.channels)
  let sum ← checkedInt (req.sampleRateHz + packetsPerSec)
  let nominalFramesPerPacket ← if packetsPerSec = 0 then none else some ((sum - 1).tdiv packetsPerSec)
  let reqBytesPerPacket ← checkedInt (nominalFramesPerPacket * frameStride)
  let actualMps := (iso.wMaxPacketSize &&& 0x07FF).toNat
  let extraTransactions := ((iso.wMaxPacketSize >>> 11) &&& 0x3).toNat + 1
  some (reqBytesPerPacket ≤ actualMps * extraTransactions)

/-- At most `hop` steps through selectors and multipliers towards a clock source. -/
def followClock (clockEntities : List ClockEntity) : Nat → Nat → Nat
  | 0, clock => clock
  | hop + 1, clock =>
    if clock = 0 then clock
    else match clockEntities.find? fun ce => ce.id == clock with
      | none => clock
      | some ent =>
        if ent.subtype = AC_CLOCK_SOURCE ∨ ent.baseId = 0 then clock else followClock clockEntities hop ent.baseId

/-- The clock of an alternate setting: through its terminal, else the first clock source, else any entity. -/
def Topology.resolveClock (t : Topology) (altTerminalLink : Nat) : Nat :=
  let linked := ((t.terminals.find? fun tc => tc.termId == altTerminalLink).map TermClock.clockId).getD 0
  let resolved := followClock t.clockEntities 4 linked
  let resolved := if resolved = 0 then
      ((t.clockEntities.find? fun ce => ce.subtype == AC_CLOCK_SOURCE).map ClockEntity.id).getD 0
    else resolved
  if resolved = 0 then (t.clockEntities.head?.map ClockEntity.id).getD 0 else resolved

/-- Every clock entity, the settable sources first. -/
def Topology.candidateClockIds (t : Topology) : List Nat :=
  (t.clockEntities.filter fun ce => ce.subtype == AC_CLOCK_SOURCE).map ClockEntity.id ++
    (t.clockEntities.filter fun ce => ce.subtype != AC_CLOCK_SOURCE).map ClockEntity.id

/-- The format `selectAltSetting` fills in for the alternate setting it has found. -/
def Topology.streamFormat (t : Topology) (isHs : Bool) (req : StreamRequest) (alt : InterfaceDescriptor) (s : AltScan)
    (iso : Endpoint) : StreamFormat :=
  let feedback := alt.endpoint.find? Endpoint.isFeedback
  { sampleRateHz := req.sampleRateHz.toNat
    bitsPerSample := req.bitsPerSample.toNat
    bytesPerSample := if s.altSubslot ≠ 0 then s.altSubslot else (req.bitsPerSample.tdiv 8).toNat
    channels := req.channels.toNat
    interfaceNumber := alt.bInterfaceNumber.toNat
    altSetting := alt.bAlternateSetting.toNat
    terminalLink := s.altTerminalLink
    endpointAddress := iso.bEndpointAddress.toNat
    syncEndpointAddress := iso.bSynchAddress.toNat
    maxPacketSize := iso.wMaxPacketSize.toNat
    clockSourceId := t.resolveClock s.altTerminalLink
    controlInterfaceNum := t.controlIface.toNat
    candidateClockIds := t.candidateClockIds
    isHighSpeed := isHs
    bInterval := iso.bInterval.toNat
    uacVersion := t.uacVersion
    feedbackEndpointAddress := (feedback.map fun ep => ep.bEndpointAddress.toNat).getD 0
    feedbackMaxPacketSize := (feedback.map fun ep => ep.wMaxPacketSize.toNat).getD 0
    feedbackInterval := (feedback.map fun ep => ep.bInterval.toNat).getD 0 }

/-- Why `selectAltSetting` has no format. -/
inductive SelectError where
  | noConfig
  | noAudioControl
  | noMatch
  /-- The capacity test ran into undefined arithmetic. -/
  | undefined
  deriving DecidableEq

/-- The second pass: the first alternate setting that passes every test. -/
def Topology.select (t : Topology) (isHs : Bool) (req : StreamRequest) :
    List InterfaceDescriptor → Except SelectError StreamFormat
  | [] => .error .noMatch
  | alt :: rest =>
    match alt.admits t.uacVersion req with
    | none => t.select isHs req rest
    | some (s, iso) =>
      match iso.fits isHs req s.altSubslot with
      | none => .error .undefined
      | some false => t.select isHs req rest
      | some true => .ok (t.streamFormat isHs req alt s iso)

def selectAltSetting (config : Option ConfigDescriptor) (isHs : Bool) (req : StreamRequest) :
    Except SelectError StreamFormat :=
  match config with
  | none => .error .noConfig
  | some c =>
    match c.topology with
    | none => .error .noAudioControl
    | some t => t.select isHs req c.altsettings

/-! ### The Line6 profile -/

/-- The endpoint of an alternate setting that `line6SelectFormat` takes for `address`: the last one. -/
def InterfaceDescriptor.line6Endpoint (alt : InterfaceDescriptor) (address : UInt8) : Option Endpoint :=
  alt.endpoint.reverse.find? fun ep =>
    ep.bmAttributes &&& 3 == LIBUSB_TRANSFER_TYPE_ISOCHRONOUS && ep.bEndpointAddress == address

/-- The alternate setting 2 with both endpoints, the last such one of the first interface that has one. -/
def ConfigDescriptor.line6Alt (c : ConfigDescriptor) : Option (InterfaceDescriptor × Endpoint × Endpoint) :=
  c.interface.findSome? fun alts => alts.reverse.findSome? fun alt =>
    if alt.bAlternateSetting ≠ 2 then none
    else match alt.line6Endpoint 0x01, alt.line6Endpoint 0x82 with
      | some outEp, some inEp => some (alt, outEp, inEp)
      | _, _ => none

/-- `line6SelectFormat`: the fixed playback and capture formats of the UX1. -/
def line6SelectFormat (config : Option ConfigDescriptor) (isHs : Bool) : Option (StreamFormat × StreamFormat) :=
  (config.bind ConfigDescriptor.line6Alt).map fun (chosen, outEp, inEp) =>
    let common : StreamFormat :=
      { sampleRateHz := 44100, bitsPerSample := 16, bytesPerSample := 2, channels := 2
        interfaceNumber := chosen.bInterfaceNumber.toNat, altSetting := chosen.bAlternateSetting.toNat
        isHighSpeed := isHs, uacVersion := 0x0100 }
    ({ common with
        maxPacketSize := (outEp.wMaxPacketSize &&& 0x07ff).toNat, endpointAddress := 0x01
        bInterval := outEp.bInterval.toNat },
      { common with
        maxPacketSize := (inEp.wMaxPacketSize &&& 0x07ff).toNat, endpointAddress := 0x82
        bInterval := inEp.bInterval.toNat, implicitFeedback := true })

/-! ### What a start negotiates -/

/-- The playback format that `startDuplex` works with after it has accepted `req`: the alternate setting found by
`selectAltSetting`, or the fixed format of the Line6 profile, for which the request is checked. -/
inductive NegotiatesPlayback (req : StreamRequest) (f : StreamFormat) : Prop
  | generic (config : Option ConfigDescriptor) (isHs : Bool) (h : selectAltSetting config isHs req = .ok f)
  | line6 (config : Option ConfigDescriptor) (isHs : Bool) (capture : StreamFormat)
      (hreq : req.sampleRateHz = 44100 ∧ req.bitsPerSample = 16 ∧ req.channels = 2 ∧
        (req.bytesPerSample = 0 ∨ req.bytesPerSample = 2))
      (h : line6SelectFormat config isHs = some (f, capture))

theorem Topology.select_ok {t : Topology} {isHs : Bool} {req : StreamRequest} {alts : List InterfaceDescriptor}
    {f : StreamFormat} (h : t.select isHs req alts = .ok f) :
    ∃ alt s iso, alt.admits t.uacVersion req = some (s, iso) ∧ f = t.streamFormat isHs req alt s iso := by
  induction alts with
  | nil => cases h
  | cons alt rest ih =>
    rw [select] at h
    split at h
    · exact ih h
    · rename_i s iso hadmits
      split at h
      · cases h
      · exact ih h
      · cases h
        exact ⟨alt, s, iso, hadmits, rfl⟩

/-- An explicit subslot size is negotiated exactly. -/
theorem NegotiatesPlayback.bytesPerSample {req : StreamRequest} {f : StreamFormat} (h : NegotiatesPlayback req f)
    (hpos : 0 < req.bytesPerSample) : (f.bytesPerSample : Int) = req.bytesPerSample := by
  cases h with
  | generic config isHs h =>
    unfold selectAltSetting at h
    split at h
    · cases h
    split at h
    · cases h
    rename_i t _
    obtain ⟨alt, s, iso, hadmits, rfl⟩ := Topology.select_ok h
    unfold InterfaceDescriptor.admits at hadmits
    obtain ⟨-, hadmits⟩ := Option.ite_none_left_eq_some.1 hadmits
    obtain ⟨hsubslot, hadmits⟩ := Option.ite_none_left_eq_some.1 hadmits
    obtain ⟨-, hadmits⟩ := Option.ite_none_left_eq_some.1 hadmits
    obtain ⟨-, hadmits⟩ := Option.ite_none_left_eq_some.1 hadmits
    obtain ⟨_, -, he⟩ := Option.map_eq_some_iff.1 hadmits
    cases he
    have heq : ((alt.scanAlt t.uacVersion req.sampleRateHz).altSubslot : Int) = req.bytesPerSample := by
      by_contra hne
      exact hsubslot ⟨hpos, hne⟩
    have hne : (alt.scanAlt t.uacVersion req.sampleRateHz).altSubslot ≠ 0 := by omega
    show ((if _ then _ else _ : Nat) : Int) = _
    rw [if_pos hne]
    exact heq
  | line6 config isHs capture hreq h =>
    obtain ⟨⟨chosen, outEp, inEp⟩, -, he⟩ := Option.map_eq_some_iff.1 h
    cases he
    have := hreq.2.2.2
    show ((2 : Nat) : Int) = _
    omega

end UacDriver

import UacDriver.Descriptors
import UacDriver.Lib.Runs
import Mathlib.Data.List.Induction
import Mathlib.Data.List.TakeWhile

/-!
# Reads through descriptor pointers

The parsers once more, with every read checked: a byte of a descriptor is there below its `bLength`, a byte of a
GET_RANGE reply below the returned length, and a read anywhere else has no value. Where no read fails, the checked
parsers are the parsers. This module has the walk, the replies and `enumerateFormats`, with the one read that can fail:
that of `bSamFreqType` through the format pointer kept after the walk.
-/

namespace UacDriver

open Runs

/-! ### Checked reads -/

namespace Descriptor

variable (d : Descriptor)

/-- `p[k]`, if it is one of the `bLength` bytes. -/
def read? (k : Nat) : Option Nat := if k < d.len then some (d.byte k) else none

def read24? (k : Nat) : Option Nat := do
  let b₀ ← d.read? k
  let b₁ ← d.read? (k + 1)
  let b₂ ← d.read? (k + 2)
  return b₀ ||| b₁ <<< 8 ||| b₂ <<< 16

def isClassDescriptor? (descType subtype : Nat) : Option Bool :=
  if d.len < 3 then some false
  else do
    let b₁ ← d.read? 1
    let b₂ ← d.read? 2
    return b₁ == descType && b₂ == subtype

variable {d}

@[simp] theorem read?_of_lt {k : Nat} (h : k < d.len) : d.read? k = some (d.byte k) := if_pos h

theorem read?_of_le {k : Nat} (h : d.len ≤ k) : d.read? k = none := if_neg (by omega)

theorem read24?_of_lt {k : Nat} (h : k + 3 ≤ d.len) : d.read24? k = some (d.rd24 k) := by
  unfold read24?
  rw [read?_of_lt (by omega), read?_of_lt (by omega), read?_of_lt (by omega)]
  rfl

/-- The class test looks at the first three bytes, and only if they are there. -/
@[simp] theorem isClassDescriptor?_eq (descType subtype : Nat) :
    d.isClassDescriptor? descType subtype = some (d.isClassDescriptor descType subtype) := by
  unfold isClassDescriptor? isClassDescriptor
  split
  · rename_i h
    rw [decide_eq_false (by omega)]
    rfl
  · rename_i h
    rw [read?_of_lt (by omega), read?_of_lt (by omega), decide_eq_true (by omega)]
    rfl

/-- The loop bound keeps a table of frequencies inside the descriptor. -/
theorem mapM_read24? (offset : Nat → Nat) (kind : Nat) :
    ((List.range kind).takeWhile fun k => decide (offset k + 3 ≤ d.len)).mapM (fun k => d.read24? (offset k)) =
      some (((List.range kind).takeWhile fun k => decide (offset k + 3 ≤ d.len)).map fun k => d.rd24 (offset k)) :=
  mapM_eq_some fun _ hk => read24?_of_lt (by simpa using List.mem_takeWhile_imp hk)

end Descriptor

/-- The loop of `walkExtra` with its reads of the length byte checked. -/
def walkExtraFrom? : Nat → List UInt8 → Option (List Descriptor)
  | 0, _ => some []
  | fuel + 1, extra =>
    if extra.length < 2 then some []
    else do
      let len ← extra[0]?
      if len.toNat < 2 ∨ extra.length < len.toNat then some []
      else (walkExtraFrom? fuel (extra.drop len.toNat)).map (⟨extra, len.toNat⟩ :: ·)

def walkExtra? (extra : List UInt8) : Option (List Descriptor) := walkExtraFrom? extra.length extra

theorem walkExtra?_eq (extra : List UInt8) : walkExtra? extra = some (walkExtra extra) := by
  unfold walkExtra? walkExtra
  generalize extra.length = fuel
  induction fuel generalizing extra with
  | zero => rfl
  | succ fuel ih =>
    unfold walkExtraFrom? walkExtraFrom
    split
    · rfl
    · rename_i hlen
      obtain ⟨b, rest, rfl⟩ : ∃ b rest, extra = b :: rest := List.exists_cons_of_length_pos (by omega)
      simp only [List.getElem?_cons_zero, Option.bind_eq_bind, Option.bind_some, List.getD_cons_zero]
      split
      · rfl
      · rw [ih]
        rfl

/-- Every descriptor of a walk lies inside the blob, and the walk has read its length from its first byte. -/
theorem walkExtra_inside {extra : List UInt8} {d : Descriptor} (h : d ∈ walkExtra extra) :
    2 ≤ d.len ∧ d.len ≤ d.p.length ∧ d.len = d.byte 0 ∧ d.p <:+ extra := by
  unfold walkExtra at h
  generalize extra.length = fuel at h
  induction fuel generalizing extra with
  | zero => exact absurd h List.not_mem_nil
  | succ fuel ih =>
    unfold walkExtraFrom at h
    split at h
    · exact absurd h List.not_mem_nil
    dsimp only at h
    split at h
    · exact absurd h List.not_mem_nil
    rename_i hlen
    rcases List.mem_cons.1 h with rfl | h
    · exact ⟨by dsimp only; omega, by dsimp only; omega, rfl, List.suffix_rfl⟩
    · obtain ⟨h₁, h₂, h₃, h₄⟩ := ih h
      exact ⟨h₁, h₂, h₃, h₄.trans (List.drop_suffix _ _)⟩

theorem le_len_of_and {b : Bool} {n : Nat} {d : Descriptor} (h : (b && decide (n ≤ d.len)) = true) : n ≤ d.len :=
  of_decide_eq_true (Bool.and_eq_true_iff.1 h).2

/-- A branch behind a length test may read as far as the test says. -/
theorem guarded_eq {α : Type} {b : Bool} {n : Nat} {d : Descriptor} {x? y? : Option α} {x y : α}
    (hx : n ≤ d.len → x? = some x) (hy : y? = some y) :
    (if b && decide (n ≤ d.len) then x? else y?) = some (if b && decide (n ≤ d.len) then x else y) := by
  split
  · rename_i h
    exact hx (le_len_of_and h)
  · exact hy

theorem guarded_isSome {α : Type} {b : Bool} {n : Nat} {d : Descriptor} {x? y? : Option α}
    (hx : n ≤ d.len → x?.isSome) (hy : y?.isSome) : (if b && decide (n ≤ d.len) then x? else y?).isSome := by
  split
  · rename_i h
    exact hx (le_len_of_and h)
  · exact hy

/-! ### `enumerateFormats` -/

def ControlScan.descriptor? (s : ControlScan) (d : Descriptor) : Option ControlScan := do
  if (← d.isClassDescriptor? CS_INTERFACE AC_HEADER) && 5 ≤ d.len then
    let b₃ ← d.read? 3
    let b₄ ← d.read? 4
    return { s with uacVersion := b₃ ||| b₄ <<< 8 }
  else if (← d.isClassDescriptor? CS_INTERFACE AC_CLOCK_SOURCE) && 4 ≤ d.len then
    let id ← d.read? 3
    return { s with clocks := s.clocks ++ [id] }
  else return s

theorem ControlScan.descriptor?_eq (s : ControlScan) (d : Descriptor) : s.descriptor? d = some (s.descriptor d) := by
  unfold descriptor? descriptor
  simp only [Descriptor.isClassDescriptor?_eq, Option.bind_eq_bind, Option.bind_some, Option.pure_def]
  refine guarded_eq (fun h => ?_) (guarded_eq (fun h => ?_) rfl)
  · rw [Descriptor.read?_of_lt (by omega), Descriptor.read?_of_lt (by omega)]
    rfl
  · rw [Descriptor.read?_of_lt (by omega)]
    rfl

def ControlScan.altsetting? (s : ControlScan) (alt : InterfaceDescriptor) : Option ControlScan :=
  if alt.isAudioControl then do
    let ds ← walkExtra? alt.extra
    ds.foldlM ControlScan.descriptor? { s with controlIface := alt.bInterfaceNumber }
  else some s

theorem ControlScan.altsetting?_eq (s : ControlScan) (alt : InterfaceDescriptor) :
    s.altsetting? alt = some (s.altsetting alt) := by
  unfold altsetting? altsetting
  split
  · rw [walkExtra?_eq]
    exact foldlM_eq_some (fun s d _ => s.descriptor?_eq d) _
  · rfl

def ConfigDescriptor.scanControl? (c : ConfigDescriptor) : Option ControlScan :=
  c.altsettings.foldlM ControlScan.altsetting? {}

theorem ConfigDescriptor.scanControl?_eq (c : ConfigDescriptor) : c.scanControl? = some c.scanControl :=
  foldlM_eq_some (fun s alt _ => s.altsetting?_eq alt) _

/-- A Type-I `FORMAT_TYPE` of the length that `enumerateFormats` keeps. -/
def Descriptor.isOffer? (d : Descriptor) : Option Bool := do
  if (← d.isClassDescriptor? CS_INTERFACE AS_FORMAT_TYPE) && 6 ≤ d.len then
    let b₃ ← d.read? 3
    return b₃ == FORMAT_TYPE_I
  else return false

def Descriptor.isOffer (d : Descriptor) : Bool :=
  d.isClassDescriptor CS_INTERFACE AS_FORMAT_TYPE && 6 ≤ d.len && d.byte 3 == FORMAT_TYPE_I

theorem Descriptor.isOffer?_eq (d : Descriptor) : d.isOffer? = some d.isOffer := by
  unfold isOffer? isOffer
  simp only [isClassDescriptor?_eq, Option.bind_eq_bind, Option.bind_some, Option.pure_def]
  split
  · rename_i h
    have := le_len_of_and h
    rw [read?_of_lt (by omega), h]
    rfl
  · rename_i h
    rw [Bool.not_eq_true] at h
    rw [h]
    rfl

theorem Descriptor.six_le_of_isOffer {d : Descriptor} (h : d.isOffer = true) : 6 ≤ d.len :=
  le_len_of_and (Bool.and_eq_true_iff.1 h).1

/-- The `AS_GENERAL` half of the callback. -/
def OfferScan.general? (uacVersion : Nat) (s : OfferScan) (d : Descriptor) : Option OfferScan := do
  if (← d.isClassDescriptor? CS_INTERFACE AS_GENERAL) && 0x0200 ≤ uacVersion && 16 ≤ d.len then
    let channels ← d.read? 10
    return { s with channels }
  else return s

/-- The `FORMAT_TYPE` half. -/
def OfferScan.format? (uacVersion : Nat) (s : OfferScan) (d : Descriptor) : Option OfferScan := do
  if ← d.isOffer? then
    if 0x0200 ≤ uacVersion then
      let bytes ← d.read? 4
      let bits ← d.read? 5
      return { s with fmt := some d, bytes, bits }
    else if 8 ≤ d.len then
      let channels ← d.read? 4
      let bytes ← d.read? 5
      let bits ← d.read? 6
      return { fmt := some d, channels, bytes, bits }
    else return { s with fmt := some d }
  else return s

def OfferScan.descriptor? (uacVersion : Nat) (s : OfferScan) (d : Descriptor) : Option OfferScan := do
  (← s.general? uacVersion d).format? uacVersion d

theorem OfferScan.descriptor?_eq (uacVersion : Nat) (s : OfferScan) (d : Descriptor) :
    s.descriptor? uacVersion d = some (s.descriptor uacVersion d) := by
  have hgeneral : s.general? uacVersion d =
      some (if d.isClassDescriptor CS_INTERFACE AS_GENERAL && 0x0200 ≤ uacVersion && 16 ≤ d.len then
        { s with channels := d.byte 10 } else s) := by
    unfold general?
    simp only [Descriptor.isClassDescriptor?_eq, Option.bind_eq_bind, Option.bind_some, Option.pure_def]
    refine guarded_eq (fun h => ?_) rfl
    rw [Descriptor.read?_of_lt (by omega)]
    rfl
  have hformat (s : OfferScan) : s.format? uacVersion d = some (if d.isOffer then
        if 0x0200 ≤ uacVersion then { s with fmt := some d, bytes := d.byte 4, bits := d.byte 5 }
        else if 8 ≤ d.len then { fmt := some d, channels := d.byte 4, bytes := d.byte 5, bits := d.byte 6 }
        else { s with fmt := some d }
      else s) := by
    unfold format?
    simp only [Descriptor.isOffer?_eq, Option.bind_eq_bind, Option.bind_some, Option.pure_def]
    split
    · rename_i h
      have := Descriptor.six_le_of_isOffer h
      split
      · rw [Descriptor.read?_of_lt (by omega), Descriptor.read?_of_lt (by omega)]
        rfl
      split
      · rw [Descriptor.read?_of_lt (by omega), Descriptor.read?_of_lt (by omega), Descriptor.read?_of_lt (by omega)]
        rfl
      · rfl
    · rfl
  unfold descriptor?
  rw [hgeneral]
  exact hformat _

def InterfaceDescriptor.scanOffer? (alt : InterfaceDescriptor) (uacVersion : Nat) : Option OfferScan := do
  let ds ← walkExtra? alt.extra
  ds.foldlM (OfferScan.descriptor? uacVersion) {}

theorem InterfaceDescriptor.scanOffer?_eq (alt : InterfaceDescriptor) (uacVersion : Nat) :
    alt.scanOffer? uacVersion = some (alt.scanOffer uacVersion) := by
  unfold scanOffer? scanOffer
  rw [walkExtra?_eq]
  exact foldlM_eq_some (fun s d _ => s.descriptor?_eq uacVersion d) _

/-- The rates behind the kept format pointer: its `bSamFreqType` is read whatever the length is. -/
def Descriptor.uac1Rates? (fmt : Descriptor) : Option (List Nat) := do
  let kind ← fmt.read? 7
  if kind = 0 ∧ 14 ≤ fmt.len then
    let lo ← fmt.read24? 8
    let hi ← fmt.read24? 11
    return if hi ≠ lo then [lo, hi] else [lo]
  else ((List.range kind).takeWhile fun k => 8 + 3 * k + 3 ≤ fmt.len).mapM fun k => fmt.read24? (8 + 3 * k)

theorem Descriptor.uac1Rates?_eq {fmt : Descriptor} (h : 8 ≤ fmt.len) : fmt.uac1Rates? = some fmt.uac1Rates := by
  unfold uac1Rates? uac1Rates
  simp only [read?_of_lt (show 7 < fmt.len by omega), Option.bind_eq_bind, Option.bind_some, Option.pure_def]
  split
  · rename_i hrange
    rw [read24?_of_lt (by omega), read24?_of_lt (by omega)]
    rfl
  · exact mapM_read24? _ _

theorem Descriptor.uac1Rates?_short {fmt : Descriptor} (h : fmt.len < 8) : fmt.uac1Rates? = none := by
  unfold uac1Rates?
  rw [read?_of_le (by omega)]
  rfl

/-- The tests that an alternate setting passes on the way to its rates. -/
def OfferScan.pcm (s : OfferScan) : Prop :=
  ¬ (s.channels < 2 ∨ (s.bits ≠ 16 ∧ s.bits ≠ 24 ∧ s.bits ≠ 32) ∨ s.bytes < (s.bits + 7) / 8 ∨ s.bytes > 4)

instance (s : OfferScan) : Decidable s.pcm := inferInstanceAs (Decidable (¬ _))

def offerAltsetting? (uacVersion : Nat) (acc : List UsbFormatCandidate × List Uac2Depth) (alt : InterfaceDescriptor) :
    Option (List UsbFormatCandidate × List Uac2Depth) :=
  if !alt.isAudioStream then some acc
  else do
    let s ← alt.scanOffer? uacVersion
    match s.fmt with
    | none => some acc
    | some fmt =>
      if ¬ s.pcm then some acc
      else if (alt.endpoint.find? Endpoint.isOutData).isNone then some acc
      else if 0x0200 ≤ uacVersion then some (acc.1, acc.2 ++ [⟨s.bits, s.bytes, s.channels⟩])
      else fmt.uac1Rates?.map fun rates =>
        (rates.foldl (fun result (rate : Nat) => addCandidate result rate s.bits s.bytes s.channels) acc.1, acc.2)

/-- A Type-I `FORMAT_TYPE` with all of the UAC1 fields. -/
def Descriptor.isFullOffer (d : Descriptor) : Bool := d.isOffer && 8 ≤ d.len

/-- The channels, the depth and the subslot size of a UAC1 `FORMAT_TYPE` are those of a PCM format. -/
def Descriptor.offersPcm (d : Descriptor) : Prop :=
  2 ≤ d.byte 4 ∧ (d.byte 6 = 16 ∨ d.byte 6 = 24 ∨ d.byte 6 = 32) ∧ (d.byte 6 + 7) / 8 ≤ d.byte 5 ∧ d.byte 5 ≤ 4

def InterfaceDescriptor.lastDescriptor (alt : InterfaceDescriptor) (test : Descriptor → Bool) : Option Descriptor :=
  (walkExtra alt.extra).reverse.find? test

/-- A streaming setting with an OUT data endpoint whose last format descriptor has only six or seven bytes, while the
last one with all fields describes a PCM format. -/
def InterfaceDescriptor.KeepsShort (alt : InterfaceDescriptor) : Prop :=
  alt.isAudioStream = true ∧ (alt.endpoint.find? Endpoint.isOutData).isSome ∧
    ∃ fmt full, alt.lastDescriptor Descriptor.isOffer = some fmt ∧ fmt.len < 8 ∧
      alt.lastDescriptor Descriptor.isFullOffer = some full ∧ full.offersPcm

/-- For UAC1 the walk keeps the last format descriptor, and the fields of the last one that has them. -/
theorem InterfaceDescriptor.scanOffer_uac1 (alt : InterfaceDescriptor) {uacVersion : Nat} (h : uacVersion < 0x0200) :
    alt.scanOffer uacVersion =
      { fmt := alt.lastDescriptor Descriptor.isOffer
        channels := ((alt.lastDescriptor Descriptor.isFullOffer).map fun d => d.byte 4).getD 0
        bytes := ((alt.lastDescriptor Descriptor.isFullOffer).map fun d => d.byte 5).getD 0
        bits := ((alt.lastDescriptor Descriptor.isFullOffer).map fun d => d.byte 6).getD 0 } := by
  have hstep (s : OfferScan) (d : Descriptor) : s.descriptor uacVersion d =
      if d.isOffer then
        if 8 ≤ d.len then { fmt := some d, channels := d.byte 4, bytes := d.byte 5, bits := d.byte 6 }
        else { s with fmt := some d }
      else s := by
    have hversion : ¬ 0x0200 ≤ uacVersion := by omega
    simp only [OfferScan.descriptor, hversion, decide_false, Bool.and_false, Bool.false_and, Bool.false_eq_true, if_false]
    rfl
  unfold scanOffer lastDescriptor
  induction walkExtra alt.extra using List.reverseRecOn with
  | nil => rfl
  | append_singleton ds d ih =>
    rw [List.foldl_append, ih, List.foldl_cons, List.foldl_nil, hstep, List.reverse_append, List.reverse_singleton,
      List.singleton_append, List.find?_cons, List.find?_cons]
    cases hoffer : d.isOffer with
    | false =>
      have hfull : d.isFullOffer = false := by rw [Descriptor.isFullOffer, hoffer]; rfl
      rw [hfull]
      rfl
    | true =>
      by_cases hlen : 8 ≤ d.len
      · have hfull : d.isFullOffer = true := by rw [Descriptor.isFullOffer, hoffer, decide_eq_true hlen]; rfl
        rw [hfull, if_pos rfl, if_pos hlen]
        rfl
      · have hfull : d.isFullOffer = false := by rw [Descriptor.isFullOffer, hoffer, decide_eq_false hlen]; rfl
        rw [hfull, if_pos rfl, if_neg hlen]

theorem InterfaceDescriptor.keepsShort_iff (alt : InterfaceDescriptor) {uacVersion : Nat} (h : uacVersion < 0x0200) :
    alt.KeepsShort ↔ alt.isAudioStream = true ∧ (alt.scanOffer uacVersion).pcm ∧
      (alt.endpoint.find? Endpoint.isOutData).isSome ∧ ∃ fmt, (alt.scanOffer uacVersion).fmt = some fmt ∧ fmt.len < 8 := by
  rw [alt.scanOffer_uac1 h]
  unfold KeepsShort OfferScan.pcm Descriptor.offersPcm
  dsimp only
  constructor
  · rintro ⟨hstream, hout, fmt, full, hfmt, hlen, hfull, hpcm⟩
    refine ⟨hstream, ?_, hout, fmt, hfmt, hlen⟩
    rw [hfull]
    simp only [Option.map_some, Option.getD_some]
    omega
  · rintro ⟨hstream, hpcm, hout, fmt, hfmt, hlen⟩
    cases hfull : alt.lastDescriptor Descriptor.isFullOffer with
    | none =>
      rw [hfull] at hpcm
      exact absurd (.inl (by decide)) hpcm
    | some full =>
      rw [hfull] at hpcm
      simp only [Option.map_some, Option.getD_some] at hpcm
      exact ⟨hstream, hout, fmt, full, hfmt, hlen, rfl, by omega⟩

theorem offerAltsetting?_eq {uacVersion : Nat} {alt : InterfaceDescriptor}
    (h : uacVersion < 0x0200 → ¬ alt.KeepsShort) (acc : List UsbFormatCandidate × List Uac2Depth) :
    offerAltsetting? uacVersion acc alt = some (offerAltsetting uacVersion acc alt) := by
  unfold offerAltsetting? offerAltsetting
  by_cases hstream : (!alt.isAudioStream) = true
  · rw [if_pos hstream, if_pos hstream]
  rw [if_neg hstream, if_neg hstream, InterfaceDescriptor.scanOffer?_eq]
  simp only [Option.bind_eq_bind, Option.bind_some]
  cases hfmt : (alt.scanOffer uacVersion).fmt with
  | none => rfl
  | some fmt =>
    dsimp only
    by_cases hpcm : (alt.scanOffer uacVersion).pcm
    swap
    · rw [if_pos hpcm, if_pos (not_not.1 hpcm)]
    rw [if_neg (not_not.2 hpcm), if_neg hpcm]
    by_cases hout : (alt.endpoint.find? Endpoint.isOutData).isNone = true
    · rw [if_pos hout, if_pos hout]
    rw [if_neg hout, if_neg hout]
    by_cases hversion : 0x0200 ≤ uacVersion
    · rw [if_pos hversion, if_pos hversion]
    rw [if_neg hversion, if_neg hversion, Descriptor.uac1Rates?_eq]
    · rfl
    by_contra hlen
    have hsome : (alt.endpoint.find? Endpoint.isOutData).isSome := by simpa [Option.isSome_iff_ne_none] using hout
    exact h (by omega) ((alt.keepsShort_iff (by omega)).2 ⟨by simpa using hstream, hpcm, hsome, fmt, hfmt, by omega⟩)

theorem offerAltsetting?_none {uacVersion : Nat} {alt : InterfaceDescriptor} (hversion : uacVersion < 0x0200)
    (h : alt.KeepsShort) (acc : List UsbFormatCandidate × List Uac2Depth) : offerAltsetting? uacVersion acc alt = none := by
  obtain ⟨hstream, hpcm, hout, fmt, hfmt, hlen⟩ := (alt.keepsShort_iff hversion).1 h
  have hout' : ¬ (alt.endpoint.find? Endpoint.isOutData).isNone = true := by
    rw [Option.isNone_iff_eq_none]
    exact Option.isSome_iff_ne_none.1 hout
  unfold offerAltsetting?
  rw [if_neg (by simp [hstream]), InterfaceDescriptor.scanOffer?_eq]
  simp only [Option.bind_eq_bind, Option.bind_some, hfmt]
  rw [if_neg (not_not.2 hpcm), if_neg hout', if_neg (by omega), Descriptor.uac1Rates?_short hlen]
  rfl

/-! ### GET_RANGE replies -/

def rd32? (rng : List UInt8) (k : Nat) : Option UInt32 := do
  let b₀ ← rng[k]?
  let b₁ ← rng[k + 1]?
  let b₂ ← rng[k + 2]?
  let b₃ ← rng[k + 3]?
  return b₀.toUInt32 ||| b₁.toUInt32 <<< 8 ||| b₂.toUInt32 <<< 16 ||| b₃.toUInt32 <<< 24

/-- The loop over the subranges of a reply of `rng.length` bytes, the same in `enumerateFormats`,
`captureRangeForClock` and `setSampleRate`. A failed request has no bytes. -/
def subranges? (rng : List UInt8) : Option (List (UInt32 × UInt32 × UInt32)) :=
  if rng.length < 2 then some []
  else do
    let b₀ ← rng[0]?
    let b₁ ← rng[1]?
    let n := b₀.toNat ||| b₁.toNat <<< 8
    ((List.range n).takeWhile fun k => 2 + 12 * (k + 1) ≤ rng.length).mapM fun k => do
      let lo ← rd32? rng (2 + 12 * k)
      let hi ← rd32? rng (2 + 12 * k + 4)
      let step ← rd32? rng (2 + 12 * k + 8)
      return (lo, hi, step)

theorem getElem?_eq_getD {rng : List UInt8} {k : Nat} (h : k < rng.length) : rng[k]? = some (rng.getD k 0) := by
  rw [List.getD_eq_getElem?_getD, List.getElem?_eq_getElem h]
  rfl

theorem rd32?_of_lt {rng : List UInt8} {k : Nat} (h : k + 4 ≤ rng.length) : rd32? rng k = some (rd32 rng k) := by
  unfold rd32?
  rw [getElem?_eq_getD (show k < rng.length by omega), getElem?_eq_getD (show k + 1 < rng.length by omega),
    getElem?_eq_getD (show k + 2 < rng.length by omega), getElem?_eq_getD (show k + 3 < rng.length by omega)]
  rfl

def subranges (rng : List UInt8) : List (UInt32 × UInt32 × UInt32) :=
  if rng.length < 2 then []
  else
    let n := (rng.getD 0 0).toNat ||| (rng.getD 1 0).toNat <<< 8
    ((List.range n).takeWhile fun k => 2 + 12 * (k + 1) ≤ rng.length).map fun k =>
      (rd32 rng (2 + 12 * k), rd32 rng (2 + 12 * k + 4), rd32 rng (2 + 12 * k + 8))

theorem subranges?_eq (rng : List UInt8) : subranges? rng = some (subranges rng) := by
  unfold subranges? subranges
  split
  · rfl
  rw [getElem?_eq_getD (show 0 < rng.length by omega), getElem?_eq_getD (show 1 < rng.length by omega)]
  simp only [Option.bind_eq_bind, Option.bind_some, Option.pure_def]
  refine mapM_eq_some fun k hk => ?_
  have hfit : 2 + 12 * (k + 1) ≤ rng.length := by simpa using List.mem_takeWhile_imp hk
  rw [rd32?_of_lt (by omega), rd32?_of_lt (by omega), rd32?_of_lt (by omega)]
  rfl

/-- The rates that `enumerateFormats` takes from a reply. -/
def replyRates? (rng : List UInt8) : Option (List UInt32) :=
  (subranges? rng).map fun ranges => ranges.flatMap fun range => subrangeRates range.1 range.2.1 range.2.2

theorem replyRates?_eq (rng : List UInt8) : replyRates? rng = some (replyRates rng) := by
  unfold replyRates?
  rw [subranges?_eq, Option.map_some]
  unfold subranges replyRates
  split
  · rfl
  · simp only [List.flatMap_map]

structure ClockRateRange where
  clockId : Nat
  minHz : UInt32
  maxHz : UInt32
  resHz : UInt32

/-- What `captureRangeForClock`, and `setSampleRate` for a clock that has refused, keep of a reply of the clock. -/
def inventory? (supportedRates : List ClockRateRange) (clockId : Nat) (rng : List UInt8) : Option (List ClockRateRange) :=
  (subranges? rng).map fun ranges => ranges.foldl (fun rates range =>
    if rates.any fun e => e.minHz == range.1 && e.maxHz == range.2.1 && e.resHz == range.2.2 then rates
    else rates ++ [⟨clockId, range.1, range.2.1, range.2.2⟩]) supportedRates

theorem inventory?_isSome (supportedRates : List ClockRateRange) (clockId : Nat) (rng : List UInt8) :
    (inventory? supportedRates clockId rng).isSome := by
  unfold inventory?
  rw [subranges?_eq]
  rfl

def addRanges? (control : ControlScan) (getRange : Nat → Nat → List UInt8) (depths : List Uac2Depth)
    (result : List UsbFormatCandidate) : Option (List UsbFormatCandidate) :=
  if 0x0200 ≤ control.uacVersion ∧ control.controlIface ≠ 0xFF then
    control.clocks.zipIdx.foldlM (fun result clock =>
      (replyRates? ((getRange clock.2 clock.1).take 256)).map fun rates =>
        rates.foldl (fun result r => addDepths depths result r.toBitVec.toInt) result) result
  else some result

theorem addRanges?_eq (control : ControlScan) (getRange : Nat → Nat → List UInt8) (depths : List Uac2Depth)
    (result : List UsbFormatCandidate) :
    addRanges? control getRange depths result = some (addRanges control getRange depths result) := by
  unfold addRanges? addRanges
  split
  · exact foldlM_eq_some (fun result clock _ => by rw [replyRates?_eq]; rfl) _
  · rfl

/-- `enumerateFormats` with every read checked. -/
def ConfigDescriptor.enumerateFormats? (c : ConfigDescriptor) (getRange : Nat → Nat → List UInt8) :
    Option (List UsbFormatCandidate) := do
  let control ← c.scanControl?
  let acc ← c.altsettings.foldlM (offerAltsetting? control.uacVersion) ([], [])
  let result ← addRanges? control getRange acc.2 acc.1
  return if 0x0200 ≤ control.uacVersion ∧ result = [] ∧ acc.2 ≠ [] then
    kCommonRates.foldl (addDepths acc.2) result
  else result

def Descriptor.isHeader (d : Descriptor) : Bool := d.isClassDescriptor CS_INTERFACE AC_HEADER && 5 ≤ d.len

/-- The version of the last header in the AudioControl settings, UAC2 without one. -/
def ConfigDescriptor.bcdADC (c : ConfigDescriptor) : Nat :=
  ((((c.altsettings.filter InterfaceDescriptor.isAudioControl).flatMap fun alt => walkExtra alt.extra).reverse.find?
    Descriptor.isHeader).map fun d => d.byte 3 ||| d.byte 4 <<< 8).getD 0x0200

theorem ConfigDescriptor.scanControl_uacVersion (c : ConfigDescriptor) : c.scanControl.uacVersion = c.bcdADC := by
  have hdescriptor (s : ControlScan) (d : Descriptor) :
      (s.descriptor d).uacVersion = if d.isHeader then d.byte 3 ||| d.byte 4 <<< 8 else s.uacVersion := by
    unfold ControlScan.descriptor Descriptor.isHeader
    split
    · rfl
    split <;> rfl
  have haltsettings (alts : List InterfaceDescriptor) (s : ControlScan) :
      (alts.foldl ControlScan.altsetting s).uacVersion =
        ((alts.filter InterfaceDescriptor.isAudioControl).flatMap fun alt => walkExtra alt.extra).foldl
          (fun v d => if d.isHeader then d.byte 3 ||| d.byte 4 <<< 8 else v) s.uacVersion := by
    induction alts generalizing s with
    | nil => rfl
    | cons alt alts ih =>
      rw [List.foldl_cons, ih, List.filter_cons, ControlScan.altsetting]
      split
      · rw [List.flatMap_cons, List.foldl_append]
        congr 1
        exact (List.foldl_hom ControlScan.uacVersion fun s d => (hdescriptor s d).symm).symm
      · rfl
  rw [scanControl, haltsettings, foldl_override]
  rfl

/-- No alternate setting of a UAC1 device keeps a short format descriptor. -/
def ConfigDescriptor.FormatsLong (c : ConfigDescriptor) : Prop :=
  c.bcdADC < 0x0200 → ∀ alt ∈ c.altsettings, ¬ alt.KeepsShort

theorem ConfigDescriptor.enumerateFormats?_eq {c : ConfigDescriptor} (h : c.FormatsLong)
    (getRange : Nat → Nat → List UInt8) : c.enumerateFormats? getRange = some (c.enumerateFormats getRange) := by
  have hoffers : c.altsettings.foldlM (offerAltsetting? c.scanControl.uacVersion) ([], []) =
      some (c.altsettings.foldl (offerAltsetting c.scanControl.uacVersion) ([], [])) :=
    foldlM_eq_some (fun acc alt halt =>
      offerAltsetting?_eq (fun hversion => h (c.scanControl_uacVersion ▸ hversion) alt halt) acc) _
  unfold enumerateFormats?
  rw [scanControl?_eq]
  simp only [Option.bind_eq_bind, Option.bind_some, hoffers, addRanges?_eq]
  rfl

theorem ConfigDescriptor.enumerateFormats?_none {c : ConfigDescriptor} (h : ¬ c.FormatsLong)
    (getRange : Nat → Nat → List UInt8) : c.enumerateFormats? getRange = none := by
  simp only [FormatsLong, ← c.scanControl_uacVersion, not_forall, not_not] at h
  obtain ⟨hversion, alt, halt, hshort⟩ := h
  have hoffers : c.altsettings.foldlM (offerAltsetting? c.scanControl.uacVersion) ([], []) = none :=
    foldlM_eq_none halt (fun acc => offerAltsetting?_none hversion hshort acc) _
  unfold enumerateFormats?
  rw [scanControl?_eq]
  simp only [Option.bind_eq_bind, Option.bind_some, hoffers, Option.bind_none]

end UacDriver

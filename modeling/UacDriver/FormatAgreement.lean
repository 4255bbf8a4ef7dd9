import UacDriver.Descriptors

/-!
# Enumeration and selection agree

Every candidate of `enumerateFormats` is a format that `selectAltSetting` can find, the packet capacity of the
endpoint apart. Both parsers fold over the descriptors of one alternate setting. For UAC2 the folds go in step. For
UAC1 they guard the descriptor with different lengths, and a second `FORMAT_TYPE` could leave one parser with the
fields of the first: there the folds are compared on the only descriptor either of them reads.
-/

namespace UacDriver

namespace ConfigDescriptor

/-- The trees on which the parsers agree. -/
structure Regular (c : ConfigDescriptor) : Prop where
  control : c.altsettings.countP InterfaceDescriptor.isAudioControl = 1
  format : ∀ alt ∈ c.altsettings, alt.isAudioStream → (walkExtra alt.extra).countP Descriptor.isFormatTypeI ≤ 1
  /-- A continuous UAC1 range is not empty. -/
  range : c.scanControl.uacVersion < 0x0200 → ∀ alt ∈ c.altsettings, alt.isAudioStream →
    ∀ d ∈ walkExtra alt.extra, d.isFormatTypeI → d.byte 7 = 0 → 14 ≤ d.len → d.rd24 8 ≤ d.rd24 11

end ConfigDescriptor

/-! ### The version -/

theorem uacVersion_foldl (ds : List Descriptor) {s : ControlScan} {t : Topology} (h : s.uacVersion = t.uacVersion) :
    (ds.foldl ControlScan.descriptor s).uacVersion = (ds.foldl Topology.descriptor t).uacVersion := by
  induction ds generalizing s t with
  | nil => exact h
  | cons d ds ih =>
    refine ih ?_
    unfold ControlScan.descriptor Topology.descriptor
    split
    · rfl
    · -- every other branch leaves the version alone
      split
      · exact h
      · split_ifs <;> exact h

theorem foldl_altsetting_filter (alts : List InterfaceDescriptor) (s : ControlScan) :
    alts.foldl ControlScan.altsetting s = (alts.filter InterfaceDescriptor.isAudioControl).foldl ControlScan.altsetting s := by
  rw [List.foldl_filter]
  congr 1
  funext s alt
  unfold ControlScan.altsetting
  split <;> rfl

theorem ConfigDescriptor.Regular.topology {c : ConfigDescriptor} (h : c.Regular) :
    ∃ t, c.topology = some t ∧ t.uacVersion = c.scanControl.uacVersion := by
  obtain ⟨ac, hac⟩ : ∃ ac, c.altsettings.filter InterfaceDescriptor.isAudioControl = [ac] :=
    List.length_eq_one_iff.1 (List.countP_eq_length_filter ▸ h.control)
  have hmem : ac.isAudioControl := (List.mem_filter.1 (hac ▸ List.mem_singleton_self ac)).2
  have hfind : c.altsettings.find? InterfaceDescriptor.isAudioControl = some ac := by
    rw [← List.head?_filter, hac]
    rfl
  refine ⟨_, by rw [ConfigDescriptor.topology, hfind]; rfl, ?_⟩
  rw [ConfigDescriptor.scanControl, foldl_altsetting_filter, hac, List.foldl_cons, List.foldl_nil,
    ControlScan.altsetting, if_pos hmem]
  exact (uacVersion_foldl _ rfl).symm

/-! ### One alternate setting -/

/-- The two parsers have read the same numbers. -/
structure SameFormat (s : OfferScan) (t : AltScan) : Prop where
  channels : s.channels = t.altChannels
  bits : s.bits = t.altBits
  bytes : s.bytes = t.altSubslot

theorem isFormatTypeI_of_six {d : Descriptor}
    (h : (d.isClassDescriptor CS_INTERFACE AS_FORMAT_TYPE && 6 ≤ d.len && d.byte 3 == FORMAT_TYPE_I) = true) :
    d.isFormatTypeI ∧ 6 ≤ d.len := by
  simp only [Bool.and_eq_true, decide_eq_true_eq] at h
  refine ⟨?_, h.1.2⟩
  simp only [Descriptor.isFormatTypeI, Bool.and_eq_true, decide_eq_true_eq]
  exact ⟨⟨h.1.1, by omega⟩, h.2⟩

theorem not_isGeneral_of_isFormatTypeI {d : Descriptor} (h : d.isFormatTypeI) :
    d.isClassDescriptor CS_INTERFACE AS_GENERAL = false := by
  simp only [Descriptor.isFormatTypeI, Descriptor.isClassDescriptor, Bool.and_eq_true, beq_iff_eq] at h
  simp [Descriptor.isClassDescriptor, h.1.1.2, AS_FORMAT_TYPE, AS_GENERAL]

section Uac2

variable {v : Nat} (hv : 0x0200 ≤ v) (rate : Int)
include hv

/-- One descriptor of a UAC2 setting: the guards of the two parsers come to the same. -/
theorem SameFormat.descriptor {s : OfferScan} {t : AltScan} (h : SameFormat s t) (d : Descriptor) :
    SameFormat (s.descriptor v d) (t.descriptor v rate d) ∧
      (t.descriptor v rate d).rateSupportedByDescriptor = t.rateSupportedByDescriptor := by
  unfold OfferScan.descriptor AltScan.descriptor
  by_cases hformat : d.isFormatTypeI
  · have hgeneral := not_isGeneral_of_isFormatTypeI hformat
    have hclass := hformat
    simp only [Descriptor.isFormatTypeI, Bool.and_eq_true] at hclass
    by_cases hlen : 6 ≤ d.len
    · simp only [hgeneral, hformat, hclass.1.1, hclass.2, hlen, hv, decide_true, Bool.and_true, Bool.false_and,
        Bool.false_eq_true, if_false, if_true]
      exact ⟨⟨h.channels, rfl, rfl⟩, trivial⟩
    · simp only [hgeneral, hformat, hlen, hv, decide_false, Bool.and_false, Bool.false_and, Bool.false_eq_true,
        if_false, if_true]
      exact ⟨h, trivial⟩
  · have hshort : (d.isClassDescriptor CS_INTERFACE AS_FORMAT_TYPE && decide (6 ≤ d.len) &&
        d.byte 3 == FORMAT_TYPE_I) = false :=
      Bool.eq_false_iff.2 fun h6 => hformat (isFormatTypeI_of_six h6).1
    by_cases hgeneral : d.isClassDescriptor CS_INTERFACE AS_GENERAL
    · by_cases hlen : 16 ≤ d.len
      · simp only [hshort, hgeneral, hlen, hv, decide_true, Bool.and_true, and_self, Bool.false_eq_true, if_false,
          if_true]
        exact ⟨⟨rfl, h.bits, h.bytes⟩, trivial⟩
      · simp only [hshort, hgeneral, hlen, decide_false, Bool.and_false, and_false, Bool.false_eq_true, if_false,
          if_true]
        exact ⟨h, trivial⟩
    · simp only [hshort, hgeneral, hformat, Bool.false_and, Bool.false_eq_true, if_false]
      exact ⟨h, trivial⟩

theorem SameFormat.foldl (ds : List Descriptor) {s : OfferScan} {t : AltScan} (h : SameFormat s t) :
    SameFormat (ds.foldl (OfferScan.descriptor v) s) (ds.foldl (AltScan.descriptor v rate) t) ∧
      (ds.foldl (AltScan.descriptor v rate) t).rateSupportedByDescriptor = t.rateSupportedByDescriptor := by
  induction ds generalizing s t with
  | nil => exact ⟨h, rfl⟩
  | cons d ds ih =>
    obtain ⟨hsame, hrate⟩ := h.descriptor hv rate d
    obtain ⟨hsame', hrate'⟩ := ih hsame
    exact ⟨hsame', hrate'.trans hrate⟩

/-- A UAC2 setting has no rates of its own, so the selection passes it at every rate. -/
theorem sameFormat_uac2 (alt : InterfaceDescriptor) :
    SameFormat (alt.scanOffer v) (alt.scanAlt v rate) ∧ (alt.scanAlt v rate).rateSupportedByDescriptor := by
  obtain ⟨hsame, hrate⟩ := SameFormat.foldl hv rate (walkExtra alt.extra) (s := {})
    (t := { rateSupportedByDescriptor := 0x0200 ≤ v }) ⟨rfl, rfl, rfl⟩
  exact ⟨hsame, hrate.trans (decide_eq_true hv)⟩

end Uac2

section Uac1

variable {v : Nat} (hv : v < 0x0200) (rate : Int)
include hv

theorem OfferScan.descriptor_of_not {d : Descriptor} (hd : ¬d.isFormatTypeI) (s : OfferScan) :
    s.descriptor v d = s := by
  have hshort : (d.isClassDescriptor CS_INTERFACE AS_FORMAT_TYPE && decide (6 ≤ d.len) &&
      d.byte 3 == FORMAT_TYPE_I) = false :=
    Bool.eq_false_iff.2 fun h6 => hd (isFormatTypeI_of_six h6).1
  have hv' : ¬0x0200 ≤ v := by omega
  simp only [OfferScan.descriptor, hshort, hv', decide_false, Bool.and_false, Bool.false_and, Bool.false_eq_true,
    if_false]

theorem AltScan.descriptor_of_not {d : Descriptor} (hd : ¬d.isFormatTypeI) (t : AltScan) :
    t.descriptor v rate d = t := by
  have hv' : ¬0x0200 ≤ v := by omega
  simp only [AltScan.descriptor, hd, hv', false_and, Bool.false_eq_true, if_false, ite_self]

/-- Only a `FORMAT_TYPE` matters in a UAC1 setting, to either parser. -/
theorem scanOffer_eq_filter (alt : InterfaceDescriptor) :
    alt.scanOffer v = ((walkExtra alt.extra).filter Descriptor.isFormatTypeI).foldl (OfferScan.descriptor v) {} := by
  rw [InterfaceDescriptor.scanOffer, List.foldl_filter]
  congr 1
  funext s d
  split
  · rfl
  · rename_i hd
    exact OfferScan.descriptor_of_not hv hd s

theorem scanAlt_eq_filter (alt : InterfaceDescriptor) :
    alt.scanAlt v rate = ((walkExtra alt.extra).filter Descriptor.isFormatTypeI).foldl (AltScan.descriptor v rate)
      { rateSupportedByDescriptor := 0x0200 ≤ v } := by
  rw [InterfaceDescriptor.scanAlt, List.foldl_filter]
  congr 1
  funext t d
  split
  · rfl
  · rename_i hd
    exact AltScan.descriptor_of_not hv rate hd t

/-- A UAC1 setting that offers channels has one `FORMAT_TYPE`, long enough for both parsers; the selection's verdict
on the rate is the one of its table. -/
theorem sameFormat_uac1 {alt : InterfaceDescriptor}
    (hone : (walkExtra alt.extra).countP Descriptor.isFormatTypeI ≤ 1) {fmt : Descriptor}
    (hfmt : (alt.scanOffer v).fmt = some fmt) (hchannels : 0 < (alt.scanOffer v).channels) :
    fmt ∈ walkExtra alt.extra ∧ fmt.isFormatTypeI ∧ SameFormat (alt.scanOffer v) (alt.scanAlt v rate) ∧
      (alt.scanAlt v rate).rateSupportedByDescriptor = fmt.uac1Supports rate false := by
  have hv' : ¬0x0200 ≤ v := by omega
  rw [scanOffer_eq_filter hv] at hfmt hchannels ⊢
  rw [scanAlt_eq_filter hv]
  rw [List.countP_eq_length_filter] at hone
  cases hfilter : (walkExtra alt.extra).filter Descriptor.isFormatTypeI with
  | nil =>
    rw [hfilter] at hfmt
    cases hfmt
  | cons d ds =>
    rw [hfilter] at hone hfmt hchannels
    obtain rfl : ds = [] := List.length_eq_zero_iff.1 (Nat.le_zero.1 (Nat.le_of_succ_le_succ hone))
    have hd := List.mem_filter.1 (hfilter ▸ List.mem_cons_self : d ∈ _)
    have hgeneral := not_isGeneral_of_isFormatTypeI hd.2
    have hclass := hd.2
    simp only [Descriptor.isFormatTypeI, Bool.and_eq_true] at hclass
    simp only [List.foldl_cons, List.foldl_nil, OfferScan.descriptor, AltScan.descriptor, hgeneral, hd.2, hclass.1.1,
      hclass.2, hv', decide_false, Bool.and_true, Bool.true_and, Bool.false_and, Bool.false_eq_true, if_false, if_true]
      at hfmt hchannels ⊢
    by_cases h8 : 8 ≤ d.len
    · have h6 : 6 ≤ d.len := by omega
      have h7 : 7 ≤ d.len := by omega
      simp only [h8, h6, h7, decide_true, if_true, Option.some.injEq] at hfmt hchannels ⊢
      subst hfmt
      exact ⟨hd.1, hd.2, ⟨rfl, rfl, rfl⟩, rfl⟩
    · -- a shorter descriptor is kept, but its channels are not read
      simp only [h8, if_false] at hchannels
      split at hchannels <;> cases hchannels

end Uac1

/-- A rate that the enumeration takes from a UAC1 table is supported by that table. -/
theorem uac1Supports_of_mem {fmt : Descriptor} (hrange : fmt.byte 7 = 0 → 14 ≤ fmt.len → fmt.rd24 8 ≤ fmt.rd24 11)
    {rate : Nat} (h : rate ∈ fmt.uac1Rates) (supported : Bool) : fmt.uac1Supports rate supported := by
  unfold Descriptor.uac1Rates at h
  unfold Descriptor.uac1Supports
  by_cases hkind : fmt.byte 7 = 0 ∧ 14 ≤ fmt.len
  · rw [if_pos hkind] at h
    rw [if_pos hkind]
    have hle := hrange hkind.1 hkind.2
    have hends : rate = fmt.rd24 8 ∨ rate = fmt.rd24 11 := by
      dsimp only at h
      split at h
      · simpa using h
      · exact .inl (List.mem_singleton.1 h)
    have hlt : rate < 2 ^ 24 := by
      obtain rfl | rfl := hends
      · exact fmt.rd24_lt 8
      · exact fmt.rd24_lt 11
    have hcast : asUint32 rate = rate := by
      unfold asUint32
      omega
    rw [hcast, Bool.and_eq_true, decide_eq_true_eq, decide_eq_true_eq]
    omega
  · rw [if_neg hkind] at h
    rw [if_neg hkind]
    obtain ⟨k, hk, rfl⟩ := List.mem_map.1 h
    have hpos : 0 < fmt.byte 7 := by
      have := List.mem_range.1 (List.takeWhile_subset _ hk)
      omega
    simp only [if_pos hpos, Nat.mul_comm _ 3, List.any_eq_true]
    exact ⟨k, hk, by simp⟩

/-! ### The candidates -/

/-- Some alternate setting passes the tests of `selectAltSetting` for the candidate. -/
def ConfigDescriptor.Selectable (c : ConfigDescriptor) (uacVersion : Nat) (f : UsbFormatCandidate) : Prop :=
  ∃ alt ∈ c.altsettings,
    (alt.admits uacVersion ⟨f.sampleRateHz, f.bitsPerSample, f.channels, f.bytesPerSample⟩).isSome

theorem mem_addCandidate {result : List UsbFormatCandidate} {rate bits bytes channels : Int} {f : UsbFormatCandidate}
    (h : f ∈ addCandidate result rate bits bytes channels) : f ∈ result ∨ f = ⟨rate, bits, bytes, channels⟩ := by
  unfold addCandidate at h
  split at h
  · exact .inl h
  · split at h
    · exact .inl h
    · simpa using h

/-- What the scan of an enumerated setting says is what the selection asks for. -/
theorem admits_isSome {alt : InterfaceDescriptor} {v : Nat} {rate : Int} (hstream : alt.isAudioStream)
    (hsame : SameFormat (alt.scanOffer v) (alt.scanAlt v rate))
    (hrate : (alt.scanAlt v rate).rateSupportedByDescriptor)
    (hout : ¬(alt.endpoint.find? Endpoint.isOutData).isNone) :
    (alt.admits v ⟨rate, (alt.scanOffer v).bits, (alt.scanOffer v).channels, (alt.scanOffer v).bytes⟩).isSome := by
  obtain ⟨ep, hep⟩ : ∃ ep, alt.endpoint.find? Endpoint.isOutData = some ep :=
    Option.ne_none_iff_exists'.1 fun hnone => hout (Option.isNone_iff_eq_none.2 hnone)
  simp only [InterfaceDescriptor.admits, hstream, hrate, hep, hsame.channels, hsame.bits, hsame.bytes, Bool.not_true,
    Bool.false_eq_true, if_false, ne_eq, not_true_eq_false, and_false, or_self, Option.map_some, Option.isSome_some]

section Candidates

variable {c : ConfigDescriptor} {v : Nat}

/-- The loop invariant of the second pass: every candidate so far is selectable, and so is every depth at any rate. -/
structure Offers (c : ConfigDescriptor) (v : Nat) (acc : List UsbFormatCandidate × List Uac2Depth) : Prop where
  result : ∀ f ∈ acc.1, c.Selectable v f
  depths : ∀ d ∈ acc.2, ∀ rate : Int, c.Selectable v ⟨rate, d.bits, d.bytes, d.channels⟩

theorem Offers.altsetting {acc : List UsbFormatCandidate × List Uac2Depth} (h : Offers c v acc)
    {alt : InterfaceDescriptor} (hmem : alt ∈ c.altsettings)
    (hformat : alt.isAudioStream → (walkExtra alt.extra).countP Descriptor.isFormatTypeI ≤ 1)
    (hrange : v < 0x0200 → alt.isAudioStream → ∀ d ∈ walkExtra alt.extra, d.isFormatTypeI → d.byte 7 = 0 →
      14 ≤ d.len → d.rd24 8 ≤ d.rd24 11) :
    Offers c v (offerAltsetting v acc alt) := by
  unfold offerAltsetting
  split
  · exact h
  rename_i hstream
  replace hstream : alt.isAudioStream := by simpa using hstream
  dsimp only
  split
  · exact h
  rename_i fmt hfmt
  split
  · exact h
  rename_i hfields
  split
  · exact h
  rename_i hout
  split
  · rename_i hv
    refine ⟨h.result, ?_⟩
    intro d hd rate
    rcases List.mem_append.1 hd with hd | hd
    · exact h.depths d hd rate
    · obtain rfl := List.mem_singleton.1 hd
      obtain ⟨hsame, hrate⟩ := sameFormat_uac2 hv rate alt
      exact ⟨alt, hmem, admits_isSome hstream hsame hrate hout⟩
  · rename_i hv
    have hv' : v < 0x0200 := by omega
    refine ⟨?_, h.depths⟩
    -- the rates of one table, added one after the other
    refine List.foldlRecOn (motive := fun result => ∀ f ∈ result, c.Selectable v f) fmt.uac1Rates _ h.result ?_
    intro result hresult rate hrate f hf
    rcases mem_addCandidate hf with hf | rfl
    · exact hresult f hf
    · obtain ⟨hin, htype, hsame, hsupported⟩ :=
        sameFormat_uac1 hv' rate (hformat hstream) hfmt (by omega)
      refine ⟨alt, hmem, admits_isSome hstream hsame ?_ hout⟩
      rw [hsupported]
      exact uac1Supports_of_mem (hrange hv' hstream fmt hin htype) hrate false

/-- Adding the depths at one more rate. -/
theorem Offers.addDepths {result : List UsbFormatCandidate} {depths : List Uac2Depth}
    (h : Offers c v (result, depths)) (rate : Int) : Offers c v (addDepths depths result rate, depths) := by
  refine ⟨?_, h.depths⟩
  refine List.foldlRecOn (motive := fun result => ∀ f ∈ result, c.Selectable v f) depths _ h.result ?_
  intro result hresult d hd f hf
  rcases mem_addCandidate hf with hf | rfl
  · exact hresult f hf
  · exact h.depths d hd rate

/-- Adding the depths at the rates of a list. -/
theorem Offers.foldl_addDepths {α : Type} {result : List UsbFormatCandidate} {depths : List Uac2Depth}
    (h : Offers c v (result, depths)) (rates : List α) (rate : α → Int) :
    Offers c v (rates.foldl (fun result r => UacDriver.addDepths depths result (rate r)) result, depths) :=
  List.foldlRecOn (motive := fun result => Offers c v (result, depths)) rates _ h fun _ hresult r _ =>
    hresult.addDepths (rate r)

theorem Offers.addRanges {result : List UsbFormatCandidate} {depths : List Uac2Depth}
    (h : Offers c v (result, depths)) (control : ControlScan) (getRange : Nat → Nat → List UInt8) :
    Offers c v (addRanges control getRange depths result, depths) := by
  unfold UacDriver.addRanges
  split
  · exact List.foldlRecOn (motive := fun result => Offers c v (result, depths)) control.clocks.zipIdx _ h
      fun _ hresult _ _ => hresult.foldl_addDepths _ fun r : UInt32 => r.toBitVec.toInt
  · exact h

end Candidates

theorem ConfigDescriptor.Regular.offers {c : ConfigDescriptor} (h : c.Regular) :
    Offers c c.scanControl.uacVersion (c.altsettings.foldl (offerAltsetting c.scanControl.uacVersion) ([], [])) := by
  refine List.foldlRecOn (motive := Offers c c.scanControl.uacVersion) c.altsettings _ ⟨by simp, by simp⟩ ?_
  intro acc hacc alt halt
  exact hacc.altsetting halt (h.format alt halt) fun hv => h.range hv alt halt

theorem ConfigDescriptor.Regular.selectable {c : ConfigDescriptor} (h : c.Regular) (getRange : Nat → Nat → List UInt8)
    {f : UsbFormatCandidate} (hf : f ∈ c.enumerateFormats getRange) : c.Selectable c.scanControl.uacVersion f := by
  have hoffers := h.offers
  unfold ConfigDescriptor.enumerateFormats at hf
  dsimp only at hf
  generalize hacc : c.altsettings.foldl (offerAltsetting c.scanControl.uacVersion) ([], []) = acc at hf hoffers
  obtain ⟨result, depths⟩ := acc
  dsimp only at hf
  have hasked := hoffers.addRanges c.scanControl getRange
  split at hf
  · exact (hasked.foldl_addDepths kCommonRates id).result f hf
  · exact hasked.result f hf

/-- Enumeration and selection agree: a format that the generic path of `enumerateFormats` offers, with any replies of
the clocks, has an alternate setting that passes every test of `selectAltSetting` but the packet capacity. The number
of `AS_GENERAL` descriptors does not matter. -/
theorem enumerated_format_selectable {c : ConfigDescriptor} (h : c.Regular) (getRange : Nat → Nat → List UInt8)
    {f : UsbFormatCandidate} (hf : f ∈ enumerateFormats true false (some c) getRange) :
    ∃ t, c.topology = some t ∧ ∃ alt ∈ c.altsettings,
      (alt.admits t.uacVersion ⟨f.sampleRateHz, f.bitsPerSample, f.channels, f.bytesPerSample⟩).isSome := by
  obtain ⟨t, ht, hversion⟩ := h.topology
  refine ⟨t, ht, ?_⟩
  rw [hversion]
  exact h.selectable getRange hf

/-- A UAC1 stereo device with two discrete rates. -/
def uac1Stereo : ConfigDescriptor where
  interface :=
    [[⟨0, 0, 1, 1, [], [9, 0x24, 1, 0x00, 0x01, 0, 0, 1, 1]⟩],
      [⟨1, 0, 1, 2, [], []⟩,
        ⟨1, 1, 1, 2, [⟨0x01, 0x09, 192, 1, 0⟩],
          [7, 0x24, 1, 1, 1, 1, 0, 14, 0x24, 2, 1, 2, 2, 16, 2, 0x44, 0xAC, 0x00, 0x80, 0xBB, 0x00]⟩]]

theorem uac1Stereo_format_selectable :
    uac1Stereo.Regular ∧
      (⟨48000, 16, 2, 2⟩ : UsbFormatCandidate) ∈ enumerateFormats true false (some uac1Stereo) (fun _ _ => []) ∧
      ∃ t, uac1Stereo.topology = some t ∧ ∃ alt ∈ uac1Stereo.altsettings,
        (alt.admits t.uacVersion ⟨48000, 16, 2, 2⟩).isSome := by
  have hregular : uac1Stereo.Regular := ⟨by decide, by decide, by decide⟩
  have hoffered : (⟨48000, 16, 2, 2⟩ : UsbFormatCandidate) ∈
      enumerateFormats true false (some uac1Stereo) (fun _ _ => []) := by decide
  exact ⟨hregular, hoffered, enumerated_format_selectable hregular _ hoffered⟩

end UacDriver

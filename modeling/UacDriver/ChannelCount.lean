import UacDriver.CaptureSelection

/-!
# The channels that are advertised

`captureChannelCount` tells the application how many capture channels there are before anything is started, and reads them
from the descriptors with a walk of its own. It counts the largest number on any setting with PCM and an isochronous input.
The walk that negotiates goes by the UAC version and this one by the descriptors it meets, so they can read one setting
differently; where they do not, no session runs with more channels than were advertised.
-/

namespace UacDriver

open Meters Runs

/-! ### The walk with plain reads -/

namespace ChannelScan

def general (s : ChannelScan) (d : Descriptor) : ChannelScan :=
  if d.isClassDescriptor CS_INTERFACE AS_GENERAL && 11 ≤ d.len then { s with channels := d.byte 10, hasUac2General := true }
  else s

def format (s : ChannelScan) (d : Descriptor) : ChannelScan :=
  if d.isOffer then
    { s with
      pcm := true
      channels := if !s.hasUac2General && 7 ≤ d.len && 0 < d.byte 4 then d.byte 4 else s.channels }
  else s

def descriptor (s : ChannelScan) (d : Descriptor) : ChannelScan := (s.general d).format d

theorem general?_eq (s : ChannelScan) (d : Descriptor) : s.general? d = some (s.general d) := by
  unfold general? general
  simp only [Descriptor.isClassDescriptor?_eq, Option.bind_eq_bind, Option.bind_some, Option.pure_def]
  refine guarded_eq (fun h => ?_) rfl
  rw [Descriptor.read?_of_lt (by omega), Option.bind_some]

theorem format?_eq (s : ChannelScan) (d : Descriptor) : s.format? d = some (s.format d) := by
  unfold format? format
  simp only [Descriptor.isOffer?_eq, Option.bind_eq_bind, Option.bind_some, Option.pure_def]
  split
  · rename_i h
    have := Descriptor.six_le_of_isOffer h
    split
    · rename_i hread
      rw [Descriptor.read?_of_lt (by omega), Option.bind_some, hread, Bool.true_and]
      by_cases hpos : 0 < d.byte 4 <;> simp [hpos]
    · rename_i hread
      rw [Bool.not_eq_true] at hread
      rw [hread, Bool.false_and]
      rfl
  · rfl

theorem descriptor?_eq (s : ChannelScan) (d : Descriptor) : s.descriptor? d = some (s.descriptor d) := by
  unfold descriptor?
  rw [general?_eq, Option.bind_eq_bind, Option.bind_some, format?_eq]
  rfl

end ChannelScan

namespace InterfaceDescriptor

def scanChannels (alt : InterfaceDescriptor) : ChannelScan := (walkExtra alt.extra).foldl ChannelScan.descriptor {}

/-- A setting whose channels are counted. -/
def countsCapture (alt : InterfaceDescriptor) : Bool :=
  alt.isAudioStream && (alt.endpoint.any fun ep => ep.isIsochronous && ep.isIn) && alt.scanChannels.pcm

theorem captureAltsetting?_eq (maximum : Nat) (alt : InterfaceDescriptor) :
    captureAltsetting? maximum alt =
      some (if alt.countsCapture then max maximum alt.scanChannels.channels else maximum) := by
  have hscan : (walkExtra alt.extra).foldlM ChannelScan.descriptor? {} = some alt.scanChannels :=
    foldlM_eq_some (fun s d _ => s.descriptor?_eq d) ({} : ChannelScan)
  unfold captureAltsetting? countsCapture
  split
  · rename_i hstream
    replace hstream : alt.isAudioStream = false := by simpa using hstream
    rw [hstream]
    rfl
  · rename_i hstream
    replace hstream : alt.isAudioStream = true := by simpa using hstream
    rw [walkExtra?_eq, Option.bind_eq_bind, Option.bind_some, Option.bind_eq_bind, hscan, Option.bind_some, hstream]
    cases (alt.endpoint.any fun ep => ep.isIsochronous && ep.isIn) <;> cases alt.scanChannels.pcm <;> try rfl
    simp only [Bool.true_and, decide_eq_true_eq, if_true, Option.pure_def, Option.some_inj]
    split <;> omega

end InterfaceDescriptor

/-- The numbers of channels that are counted. -/
def ConfigDescriptor.channelCounts (c : ConfigDescriptor) : List Nat :=
  (c.altsettings.filter InterfaceDescriptor.countsCapture).map fun alt => alt.scanChannels.channels

theorem captureChannelCount?_eq (c : ConfigDescriptor) :
    captureChannelCount? true false (some c) = some (c.channelCounts.foldl max 0) := by
  show c.altsettings.foldlM captureAltsetting? 0 = _
  rw [foldlM_eq_some (fun maximum alt _ => alt.captureAltsetting?_eq maximum), ConfigDescriptor.channelCounts, List.foldl_map,
    List.foldl_filter]

/-! ### The two walks over one setting -/

/-- No setting has an `AS_GENERAL` of the UAC2 length. -/
def ConfigDescriptor.ShortGenerals (c : ConfigDescriptor) : Prop :=
  ∀ alt ∈ c.altsettings, ∀ d ∈ walkExtra alt.extra, d.isClassDescriptor CS_INTERFACE AS_GENERAL = true → d.len < 11

/-- What the walk that negotiates has found, the one that counts has found as well. -/
structure Counted (uacVersion : Nat) (s : CaptureScan) (t : ChannelScan) : Prop where
  channels : s.channels ≠ 0 → t.channels = s.channels
  uac2 : 0x0200 ≤ uacVersion → s.channels ≠ 0 → t.hasUac2General = true
  uac1 : uacVersion < 0x0200 → t.hasUac2General = false
  pcm : s.bits ≠ 0 → t.pcm = true

namespace Counted

variable {uacVersion : Nat} {s : CaptureScan} {t : ChannelScan} {d : Descriptor}

theorem general (h : Counted uacVersion s t)
    (hshort : uacVersion < 0x0200 → d.isClassDescriptor CS_INTERFACE AS_GENERAL = true → d.len < 11) :
    Counted uacVersion (s.general uacVersion d) (t.general d) := by
  unfold CaptureScan.general ChannelScan.general
  by_cases hgeneral : d.isClassDescriptor CS_INTERFACE AS_GENERAL = true ∧ 11 ≤ d.len
  · obtain ⟨hclass, hlen⟩ := hgeneral
    have hversion : 0x0200 ≤ uacVersion := by
      by_contra hold
      have := hshort (by omega) hclass
      omega
    simp only [hclass, hlen, hversion, decide_true, Bool.and_self, if_true]
    exact ⟨fun _ => rfl, fun _ _ => rfl, fun hold => absurd hversion (by omega), h.pcm⟩
  · have hno : (d.isClassDescriptor CS_INTERFACE AS_GENERAL && decide (11 ≤ d.len)) = false := by
      rw [Bool.eq_false_iff, Ne, Bool.and_eq_true, decide_eq_true_eq]
      exact hgeneral
    have hno' : (d.isClassDescriptor CS_INTERFACE AS_GENERAL && decide (0x0200 ≤ uacVersion) && decide (11 ≤ d.len)) =
        false := by
      rw [Bool.and_right_comm, hno, Bool.false_and]
    rw [hno, hno']
    exact h

theorem format (h : Counted uacVersion s t) : Counted uacVersion (s.format uacVersion d) (t.format d) := by
  unfold CaptureScan.format ChannelScan.format
  split
  swap
  · exact h
  split
  · rename_i hversion
    refine ⟨fun hsome => ?_, h.uac2, h.uac1, fun _ => rfl⟩
    have hgeneral := h.uac2 hversion hsome
    rw [hgeneral]
    exact h.channels hsome
  rename_i hversion
  have hold := h.uac1 (by omega)
  split
  · rename_i hlen
    refine ⟨fun hsome => ?_, fun hnew => absurd hnew hversion, h.uac1, fun _ => rfl⟩
    have hpos : 0 < d.byte 4 := Nat.pos_of_ne_zero hsome
    simp [hold, hlen, hpos]
  · rename_i hlen
    refine ⟨fun hsome => ?_, fun hnew => absurd hnew hversion, h.uac1, fun _ => rfl⟩
    simpa [hold, hlen] using h.channels hsome

/-- Over one setting. -/
theorem foldl (ds : List Descriptor) (h : Counted uacVersion s t)
    (hshort : uacVersion < 0x0200 → ∀ d ∈ ds, d.isClassDescriptor CS_INTERFACE AS_GENERAL = true → d.len < 11) :
    Counted uacVersion (ds.foldl (CaptureScan.descriptor uacVersion) s) (ds.foldl ChannelScan.descriptor t) := by
  induction ds generalizing s t with
  | nil => exact h
  | cons d ds ih =>
    refine ih (h.general fun hold => hshort hold d List.mem_cons_self).format fun hold d' hd' => ?_
    exact hshort hold d' (List.mem_cons_of_mem d hd')

end Counted

theorem scanCapture_counted {c : ConfigDescriptor} {alt : InterfaceDescriptor} (halt : alt ∈ c.altsettings) {uacVersion : Nat}
    (hregular : 0x0200 ≤ uacVersion ∨ c.ShortGenerals) : Counted uacVersion (alt.scanCapture uacVersion) alt.scanChannels := by
  have hstart : Counted uacVersion {} {} :=
    ⟨fun hsome => absurd rfl hsome, fun _ hsome => absurd rfl hsome, fun _ => rfl, fun hsome => absurd rfl hsome⟩
  refine hstart.foldl (walkExtra alt.extra) fun hold d hd hclass => ?_
  rcases hregular with hnew | hshort
  · omega
  · exact hshort alt halt d hd hclass

/-! ### What is negotiated is counted -/

/-- An offered endpoint is on a setting that is counted, with the channels that are negotiated. -/
theorem ConfigDescriptor.OffersCapture.counted {c : ConfigDescriptor} {playback : StreamFormat} {alt : InterfaceDescriptor}
    {ep : Endpoint} (h : c.OffersCapture playback alt ep) (hbits : playback.bitsPerSample ≠ 0)
    (hregular : 0x0200 ≤ playback.uacVersion ∨ c.ShortGenerals) :
    (alt.scanCapture playback.uacVersion).channels ∈ c.channelCounts := by
  obtain ⟨halt, hstream⟩ := h.setting
  have hcounted := scanCapture_counted halt hregular
  have hchannels := hcounted.channels h.channels.ne'
  have hpcm := hcounted.pcm (h.bits ▸ hbits)
  obtain ⟨hmem, htakes⟩ := h.endpoint
  have hinput : (alt.endpoint.any fun ep => ep.isIsochronous && ep.isIn) = true := by
    refine List.any_eq_true.2 ⟨ep, hmem, ?_⟩
    unfold StreamFormat.takesCapture at htakes
    simp only [Bool.and_eq_true] at htakes ⊢
    tauto
  refine List.mem_map.2 ⟨alt, List.mem_filter.2 ⟨halt, ?_⟩, hchannels⟩
  rw [InterfaceDescriptor.countsCapture, hstream, hinput, hpcm]
  rfl

/-- The count is the largest, and no smaller than what the other walk finds. -/
theorem channels_le_count {config : Option ConfigDescriptor} {playback capture : StreamFormat}
    (hfound : selectCaptureAltSetting config playback = some capture) (hbits : playback.bitsPerSample ≠ 0)
    (hregular : 0x0200 ≤ playback.uacVersion ∨ ∀ c ∈ config, c.ShortGenerals) :
    ∃ advertised, captureChannelCount? true false config = some advertised ∧ capture.channels ≤ advertised := by
  obtain ⟨c, rfl, hmap⟩ := Option.bind_eq_some_iff.1 hfound
  obtain ⟨choice, hchoice, rfl⟩ := Option.map_eq_some_iff.1 hmap
  obtain ⟨alt, ep, hoffers, rfl⟩ := mem_captureCandidates.1 (choice_mem hchoice)
  refine ⟨_, captureChannelCount?_eq c, ?_⟩
  have hcounted := hoffers.counted hbits (hregular.imp_right fun hshort => hshort c rfl)
  exact (isGreatest_foldl_max 0 c.channelCounts).2 (.inr hcounted)

theorem Line6.channels {config : Option ConfigDescriptor} {isHs : Bool} {playback capture : StreamFormat}
    (h : line6SelectFormat config isHs = some (playback, capture)) : capture.channels = 2 := by
  obtain ⟨⟨chosen, outEp, inEp⟩, -, he⟩ := Option.map_eq_some_iff.1 h
  cases he
  rfl

namespace Host

variable {w : Nat}

theorem stopPumps_line6Profile (h : Host w) (a : Answers w) (out capture : Place) :
    (h.stopPumps a out capture).1.line6Profile = h.line6Profile := by
  unfold stopPumps stopIsoPump stopCapturePump
  dsimp only
  split_ifs <;> rfl

theorem stop_line6Profile (h : Host w) (a : Answers w) : (h.stop a).line6Profile = h.line6Profile := by
  have hpumps : ((h.withDriver h.drv.requestStop).stopPumps a .stopOut .stopCapture).1.line6Profile = h.line6Profile :=
    stopPumps_line6Profile _ a .stopOut .stopCapture
  unfold stop releaseCapture releaseControl releaseStreaming
  dsimp only
  split_ifs <;> first | rfl | exact hpumps

end Host

namespace Adapter

variable {w : Nat} {α : Type}

/-- After every sequence of the adapter's calls, on a device that is parsed: a start that succeeds runs with no more capture
channels than `captureChannelCount` reads from the same descriptors, on the Line6 profile, on a UAC2 device, and on a UAC1
device whose descriptors have the lengths of UAC1. -/
theorem channels_advertised (quantise : (bits : Nat) → α → BitVec bits) (z : RingSize w) (as : List (AdapterAct w α))
    (a₁ a₃ : Answers w) {a₂ : Answers w} (ha : a₂.Parses)
    (sampleRate bitsPerSample bytesPerSample channels outputPair : Int) :
    let s := run (step quantise) (constructed z) as
    let started := s.start a₁ a₂ a₃ sampleRate bitsPerSample bytesPerSample channels outputPair
    started.2 = true →
    (s.host.line6Profile = true ∨ 0x0200 ≤ started.1.host.drv.pb.format.uacVersion ∨ ∀ c ∈ a₂.config, c.ShortGenerals) →
      ∃ advertised, captureChannelCount? true s.host.line6Profile a₂.config = some advertised ∧
        started.1.host.drv.cap.format.channels ≤ advertised := by
  intro s started hok hregular
  have h : s.Agrees := Agrees.run quantise z as
  have hreached : s.host.device = true ∧
      DirectUsbOutput.requestRefused sampleRate bitsPerSample bytesPerSample channels outputPair = false := by
    by_contra hno
    have hguard : (!s.host.device) = true ∨
        DirectUsbOutput.requestRefused sampleRate bitsPerSample bytesPerSample channels outputPair = true := by
      rcases not_and_or.1 hno with hclosed | hrefused
      · exact .inl (by simpa using hclosed)
      · exact .inr (by simpa using hrefused)
    have hrefused : started = (s, false) := if_pos hguard
    rw [hrefused] at hok
    cases hok
  obtain ⟨hopen, hrequest⟩ := hreached
  obtain ⟨hiff, hsame⟩ := start_duplex h a₁ a₃ ha hopen hrequest
  have hduplex := (hiff.1 hok).1
  obtain ⟨hhost, -⟩ := hsame hok
  have hprofile : (s.stop a₁).host.line6Profile = s.host.line6Profile := Host.stop_line6Profile s.host a₁
  obtain ⟨hline6, hgeneric⟩ := Host.startDuplex_found ha hduplex
  rw [hhost] at hregular ⊢
  cases hkind : s.host.line6Profile with
  | true => exact ⟨2, rfl, (Line6.channels (hline6 (hprofile.trans hkind))).le⟩
  | false =>
    have hneg := (Host.startDuplex_negotiated (h.stop a₁).fits a₂
      ⟨sampleRate, bitsPerSample, channels, bytesPerSample⟩).2 hduplex
    have hdepth : bitsPerSample.toNat ≠ 0 := by
      simp only [DirectUsbOutput.requestRefused, decide_eq_false_iff_not, not_or, not_and, not_lt, not_le,
        Decidable.not_not] at hrequest
      omega
    refine channels_le_count (hgeneric (hprofile.trans hkind)) (hneg.bitsPerSample ▸ hdepth) ?_
    rcases hregular with hyes | hregular
    · cases hkind.symm.trans hyes
    · exact hregular

/-- The mono input of `uac1Guitar` is advertised and negotiated. -/
theorem channels_advertised_mono :
    let quantise := fun bits (x : Int) => BitVec.ofInt bits x
    let s := run (step quantise) (constructed defaultRing) [.open_ {} {} {} {} {} 5 0]
    let started := s.start {} parsedGuitar {} 48000 16 2 2 0
    started.2 = true ∧ captureChannelCount? true s.host.line6Profile parsedGuitar.config = some 1 ∧
      ∃ advertised, captureChannelCount? true s.host.line6Profile parsedGuitar.config = some advertised ∧
        started.1.host.drv.cap.format.channels ≤ advertised := by
  have hshort : ∀ c ∈ parsedGuitar.config, c.ShortGenerals := by
    rintro c ⟨⟩
    unfold ConfigDescriptor.ShortGenerals
    decide +kernel
  have hparses : parsedGuitar.Parses := rfl
  refine ⟨by decide +kernel, by decide +kernel, ?_⟩
  exact channels_advertised _ defaultRing [.open_ {} {} {} {} {} 5 0] {} {} hparses 48000 16 2 2 0 (by decide +kernel)
    (.inr (.inr hshort))

end Adapter

end UacDriver

import UacDriver.Adapter
import UacDriver.SelectionReads

/-!
# The capture half of a session

`selectCaptureAltSetting` walks all alternate settings and all their endpoints with one running choice. Its specification
is a list, `captureCandidates`: what passes every test, in the order of the walk. The choice is the first implicit-feedback
candidate, or the first candidate if there is none. The format it makes keeps the rate and the subslot of playback, so that
a device that is started by its own descriptors runs both directions in one format, and the second check of the adapter's
`start` comes down to the number of capture channels.
-/

namespace UacDriver

open Runs

/-! ### The walk with plain reads -/

namespace CaptureScan

def general (uacVersion : Nat) (s : CaptureScan) (d : Descriptor) : CaptureScan :=
  if d.isClassDescriptor CS_INTERFACE AS_GENERAL && 0x0200 ≤ uacVersion && 11 ≤ d.len then
    { s with terminalLink := if 16 ≤ d.len then d.byte 3 else 0, channels := d.byte 10 }
  else s

def format (uacVersion : Nat) (s : CaptureScan) (d : Descriptor) : CaptureScan :=
  if d.isOffer then
    if 0x0200 ≤ uacVersion then { s with bytes := d.byte 4, bits := d.byte 5 }
    else if 7 ≤ d.len then { s with channels := d.byte 4, bytes := d.byte 5, bits := d.byte 6 }
    else s
  else s

def descriptor (uacVersion : Nat) (s : CaptureScan) (d : Descriptor) : CaptureScan :=
  (s.general uacVersion d).format uacVersion d

theorem general?_eq (uacVersion : Nat) (s : CaptureScan) (d : Descriptor) :
    s.general? uacVersion d = some (s.general uacVersion d) := by
  unfold general? general
  simp only [Descriptor.isClassDescriptor?_eq, Option.bind_eq_bind, Option.bind_some, Option.pure_def]
  refine guarded_eq (fun h => ?_) rfl
  split
  · rw [Descriptor.read?_of_lt (by omega), Option.bind_some, Descriptor.read?_of_lt (by omega), Option.bind_some]
  · rw [Descriptor.read?_of_lt (by omega), Option.bind_some]

theorem format?_eq (uacVersion : Nat) (s : CaptureScan) (d : Descriptor) :
    s.format? uacVersion d = some (s.format uacVersion d) := by
  unfold format? format
  simp only [Descriptor.isOffer?_eq, Option.bind_eq_bind, Option.bind_some, Option.pure_def]
  split
  · rename_i h
    have := Descriptor.six_le_of_isOffer h
    split
    · rw [Descriptor.read?_of_lt (by omega), Descriptor.read?_of_lt (by omega)]
      rfl
    split
    · rw [Descriptor.read?_of_lt (by omega), Descriptor.read?_of_lt (by omega), Descriptor.read?_of_lt (by omega)]
      rfl
    · rfl
  · rfl

theorem descriptor?_eq (uacVersion : Nat) (s : CaptureScan) (d : Descriptor) :
    s.descriptor? uacVersion d = some (s.descriptor uacVersion d) := by
  unfold descriptor?
  rw [general?_eq, Option.bind_eq_bind, Option.bind_some, format?_eq]
  rfl

end CaptureScan

def InterfaceDescriptor.scanCapture (alt : InterfaceDescriptor) (uacVersion : Nat) : CaptureScan :=
  (walkExtra alt.extra).foldl (CaptureScan.descriptor uacVersion) {}

def ConfigDescriptor.captureTopology (c : ConfigDescriptor) (playback : StreamFormat) : Topology :=
  if 0x0200 ≤ playback.uacVersion then
    (c.altsettings.filter InterfaceDescriptor.isAudioControl).foldl
      (fun t alt => (walkExtra alt.extra).foldl Topology.entity t) {}
  else {}

theorem ConfigDescriptor.captureTopology?_eq (c : ConfigDescriptor) (playback : StreamFormat) :
    c.captureTopology? playback = some (c.captureTopology playback) := by
  unfold captureTopology? captureTopology
  split
  · refine foldlM_eq_some (fun (t : Topology) alt _ => ?_) ({} : Topology)
    rw [walkExtra?_eq, Option.bind_eq_bind, Option.bind_some]
    exact foldlM_eq_some (fun t d _ => t.entity?_eq d) t
  · rfl

/-! ### The candidates -/

/-- The tests of an alternate setting: not the terminal of playback, no clock other than its clock, its subslot, and at
least one channel. -/
def Topology.admitsCapture (t : Topology) (playback : StreamFormat) (alt : InterfaceDescriptor) : Bool :=
  let s := alt.scanCapture playback.uacVersion
  let candidateClock := t.captureClock s.terminalLink
  alt.isAudioStream && !decide (playback.terminalLink ≠ 0 ∧ s.terminalLink = playback.terminalLink) &&
    !decide (playback.clockSourceId ≠ 0 ∧ candidateClock ≠ 0 ∧ candidateClock ≠ playback.clockSourceId) &&
    !decide (s.channels = 0 ∨ s.bits ≠ playback.bitsPerSample ∨ s.bytes ≠ playback.bytesPerSample)

def Topology.candidate (t : Topology) (playback : StreamFormat) (alt : InterfaceDescriptor) (ep : Endpoint) : CaptureChoice :=
  let s := alt.scanCapture playback.uacVersion
  ⟨alt, ep, ep.usage == 2, s.channels, t.captureClock s.terminalLink⟩

/-- What passes every test, in the order of the walk. -/
def ConfigDescriptor.captureCandidates (c : ConfigDescriptor) (playback : StreamFormat) : List CaptureChoice :=
  let t := c.captureTopology playback
  (c.altsettings.filter (t.admitsCapture playback)).flatMap fun alt =>
    (alt.endpoint.filter playback.takesCapture).map (t.candidate playback alt)

/-- One step of the choice over the candidates. -/
def prefer (choice : Option CaptureChoice) (candidate : CaptureChoice) : Option CaptureChoice :=
  if choice.isNone || (candidate.implicitFeedback && !choice.any CaptureChoice.implicitFeedback) then some candidate else choice

theorem chooseCapture?_eq (t : Topology) (playback : StreamFormat) (choice : Option CaptureChoice) (alt : InterfaceDescriptor) :
    t.chooseCapture? playback choice alt = some (if t.admitsCapture playback alt then
      ((alt.endpoint.filter playback.takesCapture).map (t.candidate playback alt)).foldl prefer choice else choice) := by
  have hendpoints (eps : List Endpoint) (choice : Option CaptureChoice) :
      eps.foldl (playback.chooseEndpoint alt (alt.scanCapture playback.uacVersion).channels
        (t.captureClock (alt.scanCapture playback.uacVersion).terminalLink)) choice =
      ((eps.filter playback.takesCapture).map (t.candidate playback alt)).foldl prefer choice := by
    rw [List.foldl_map, List.foldl_filter]
    congr 1
    funext choice ep
    unfold StreamFormat.chooseEndpoint prefer
    cases playback.takesCapture ep with
    | true => rfl
    | false => rfl
  unfold Topology.chooseCapture? Topology.admitsCapture
  split
  · rename_i hstream
    replace hstream : alt.isAudioStream = false := by simpa using hstream
    rw [hstream]
    rfl
  rename_i hstream
  replace hstream : alt.isAudioStream = true := by simpa using hstream
  have hscan : (walkExtra alt.extra).foldlM (CaptureScan.descriptor? playback.uacVersion) {} =
      some (alt.scanCapture playback.uacVersion) :=
    foldlM_eq_some (fun s d _ => CaptureScan.descriptor?_eq playback.uacVersion s d) ({} : CaptureScan)
  rw [walkExtra?_eq, Option.bind_eq_bind, Option.bind_some, Option.bind_eq_bind, hscan, Option.bind_some, hstream]
  dsimp only
  split
  · rename_i hterminal
    simp [hterminal]
  rename_i hterminal
  split
  · rename_i hclock
    simp [hclock]
  rename_i hclock
  split
  · rename_i hformat
    simp [hformat]
  · rename_i hformat
    rw [hendpoints]
    simp [hterminal, hclock, hformat]

/-- The format that is found for a playback format. -/
def selectCaptureAltSetting (config : Option ConfigDescriptor) (playback : StreamFormat) : Option StreamFormat :=
  config.bind fun c =>
    let candidates := c.captureCandidates playback
    ((candidates.find? CaptureChoice.implicitFeedback).or candidates.head?).map fun choice => choice.streamFormat playback

theorem selectCaptureAltSetting?_eq (config : Option ConfigDescriptor) (playback : StreamFormat) :
    selectCaptureAltSetting? config playback = some (selectCaptureAltSetting config playback) := by
  cases config with
  | none => rfl
  | some c =>
    have hwalk (alts : List InterfaceDescriptor) (t : Topology) (choice : Option CaptureChoice) :
        alts.foldlM (t.chooseCapture? playback) choice = some (((alts.filter (t.admitsCapture playback)).flatMap fun alt =>
          (alt.endpoint.filter playback.takesCapture).map (t.candidate playback alt)).foldl prefer choice) := by
      rw [foldlM_eq_some (fun choice alt _ => chooseCapture?_eq t playback choice alt), List.foldl_flatMap, List.foldl_filter]
    show (c.captureTopology? playback).bind _ = _
    rw [c.captureTopology?_eq, Option.bind_some, hwalk]
    have hprefer := foldl_prefer (p := CaptureChoice.implicitFeedback) (c.captureCandidates playback)
    show some (((c.captureCandidates playback).foldl prefer none).map fun choice => choice.streamFormat playback) = _
    exact congrArg (fun choice : Option CaptureChoice => some (choice.map fun choice => choice.streamFormat playback)) hprefer

/-! ### What is chosen -/

/-- An isochronous endpoint on which `playback` can be run duplex. -/
structure ConfigDescriptor.OffersCapture (c : ConfigDescriptor) (playback : StreamFormat) (alt : InterfaceDescriptor)
    (ep : Endpoint) : Prop where
  setting : alt ∈ c.altsettings ∧ alt.isAudioStream = true
  terminal : playback.terminalLink = 0 ∨ (alt.scanCapture playback.uacVersion).terminalLink ≠ playback.terminalLink
  clock : let candidateClock := (c.captureTopology playback).captureClock (alt.scanCapture playback.uacVersion).terminalLink
    playback.clockSourceId = 0 ∨ candidateClock = 0 ∨ candidateClock = playback.clockSourceId
  channels : 0 < (alt.scanCapture playback.uacVersion).channels
  bits : (alt.scanCapture playback.uacVersion).bits = playback.bitsPerSample
  bytes : (alt.scanCapture playback.uacVersion).bytes = playback.bytesPerSample
  endpoint : ep ∈ alt.endpoint ∧ playback.takesCapture ep = true

section Choice

variable {c : ConfigDescriptor} {playback : StreamFormat}

theorem mem_captureCandidates {choice : CaptureChoice} :
    choice ∈ c.captureCandidates playback ↔ ∃ alt ep, c.OffersCapture playback alt ep ∧
      choice = (c.captureTopology playback).candidate playback alt ep := by
  simp only [ConfigDescriptor.captureCandidates, List.mem_flatMap, List.mem_map, List.mem_filter, Topology.admitsCapture,
    Bool.and_eq_true, Bool.not_eq_true', decide_eq_false_iff_not, not_and_or, not_or, not_not]
  constructor
  · rintro ⟨alt, ⟨hsetting, ⟨⟨hstream, hterminal⟩, hclock⟩, hchannels, hbits, hbytes⟩, ep, hep, rfl⟩
    refine ⟨alt, ep, ⟨⟨hsetting, hstream⟩, hterminal, ?_, Nat.pos_of_ne_zero hchannels, hbits, hbytes, hep⟩, rfl⟩
    exact hclock
  · rintro ⟨alt, ep, h, rfl⟩
    refine ⟨alt, ⟨h.setting.1, ⟨⟨h.setting.2, h.terminal⟩, ?_⟩, h.channels.ne', h.bits, h.bytes⟩, ep, h.endpoint, rfl⟩
    exact h.clock

/-- The two directions of a session run at one rate with one subslot. -/
structure StreamFormat.Paired (playback capture : StreamFormat) : Prop where
  sampleRateHz : capture.sampleRateHz = playback.sampleRateHz
  bitsPerSample : capture.bitsPerSample = playback.bitsPerSample
  bytesPerSample : capture.bytesPerSample = playback.bytesPerSample
  channels : 0 < capture.channels

theorem choice_mem {choice : CaptureChoice} (h : ((c.captureCandidates playback).find? CaptureChoice.implicitFeedback).or
    (c.captureCandidates playback).head? = some choice) : choice ∈ c.captureCandidates playback := by
  rcases Option.or_eq_some_iff.1 h with hpreferred | ⟨-, hfirst⟩
  · exact List.mem_of_find?_eq_some hpreferred
  · exact List.mem_of_mem_head? hfirst

theorem selectCaptureAltSetting_paired (config : Option ConfigDescriptor) {capture : StreamFormat}
    (h : selectCaptureAltSetting config playback = some capture) : playback.Paired capture := by
  obtain ⟨c, -, h⟩ := Option.bind_eq_some_iff.1 h
  obtain ⟨choice, hchoice, rfl⟩ := Option.map_eq_some_iff.1 h
  obtain ⟨alt, ep, hoffers, rfl⟩ := mem_captureCandidates.1 (choice_mem hchoice)
  exact ⟨rfl, rfl, rfl, hoffers.channels⟩

/-- For every configuration and every playback format the walk finds a capture format if and only if some endpoint is
offered, and then the one of an offered endpoint, of an implicit-feedback endpoint if one is offered; of several it is the first of
the walk. The format keeps the rate and the subslot of playback. -/
theorem captureSelection_exact (c : ConfigDescriptor) (playback : StreamFormat) :
    ∃ found : Option CaptureChoice,
      selectCaptureAltSetting? (some c) playback = some (found.map fun choice => choice.streamFormat playback) ∧
      (found = none ↔ ∀ alt ep, ¬c.OffersCapture playback alt ep) ∧
      ∀ choice, found = some choice →
        (∃ alt ep, c.OffersCapture playback alt ep ∧ choice = (c.captureTopology playback).candidate playback alt ep) ∧
        (choice.implicitFeedback = true ↔ ∃ alt ep, c.OffersCapture playback alt ep ∧ ep.usage = 2) ∧
        (∃ pre post, c.captureCandidates playback = pre ++ choice :: post ∧
          ∀ earlier ∈ pre, choice.implicitFeedback = true ∧ earlier.implicitFeedback = false) ∧
        playback.Paired (choice.streamFormat playback) := by
  have himplicit {choice : CaptureChoice} (hmem : choice ∈ c.captureCandidates playback)
      (h : choice.implicitFeedback = true) : ∃ alt ep, c.OffersCapture playback alt ep ∧ ep.usage = 2 := by
    obtain ⟨alt, ep, hoffers, rfl⟩ := mem_captureCandidates.1 hmem
    exact ⟨alt, ep, hoffers, eq_of_beq h⟩
  have hnone_iff : (∀ choice ∈ c.captureCandidates playback, ¬choice.implicitFeedback = true) ↔
      ¬∃ alt ep, c.OffersCapture playback alt ep ∧ ep.usage = 2 := by
    constructor
    · rintro hnone ⟨alt, ep, hoffers, husage⟩
      exact hnone _ (mem_captureCandidates.2 ⟨alt, ep, hoffers, rfl⟩) (beq_iff_eq.2 husage)
    · exact fun hno choice hmem h => hno (himplicit hmem h)
  refine ⟨_, selectCaptureAltSetting?_eq (some c) playback, ?_, fun choice hchoice => ?_⟩
  · rw [Option.or_eq_none_iff, List.head?_eq_none_iff, List.find?_eq_none]
    constructor
    · rintro ⟨-, hempty⟩ alt ep hoffers
      exact List.not_mem_nil (hempty ▸ mem_captureCandidates.2 ⟨alt, ep, hoffers, rfl⟩)
    · intro hno
      have hempty : c.captureCandidates playback = [] := List.eq_nil_iff_forall_not_mem.2 fun choice hmem => by
        obtain ⟨alt, ep, hoffers, -⟩ := mem_captureCandidates.1 hmem
        exact hno alt ep hoffers
      exact ⟨fun _ hmem => absurd (hempty ▸ hmem) List.not_mem_nil, hempty⟩
  have hmem := choice_mem hchoice
  have hpaired : playback.Paired (choice.streamFormat playback) := by
    refine selectCaptureAltSetting_paired (some c) ?_
    exact congrArg (Option.map fun choice => choice.streamFormat playback) hchoice
  refine ⟨mem_captureCandidates.1 hmem, ?_, ?_, hpaired⟩
  · rcases Option.or_eq_some_iff.1 hchoice with hpreferred | ⟨hnone, hfirst⟩
    · exact iff_of_true (List.find?_some hpreferred) (himplicit hmem (List.find?_some hpreferred))
    · have hno := List.find?_eq_none.1 hnone
      exact iff_of_false (hno choice hmem) (hnone_iff.1 hno)
  · rcases Option.or_eq_some_iff.1 hchoice with hpreferred | ⟨-, hfirst⟩
    · obtain ⟨hyes, pre, post, hsplit, hpre⟩ := List.find?_eq_some_iff_append.1 hpreferred
      exact ⟨pre, post, hsplit, fun earlier hearlier => ⟨hyes, by simpa using hpre earlier hearlier⟩⟩
    · obtain ⟨rest, hsplit⟩ := List.head?_eq_some_iff.1 hfirst
      exact ⟨[], rest, hsplit, fun _ h => absurd h List.not_mem_nil⟩

end Choice

/-! ### Both directions in one format -/

variable {w : Nat}

/-- The device is started by its own descriptors. -/
def Answers.Parses (a : Answers w) : Prop := a.selectCaptureAltSetting = UacDriver.selectCaptureAltSetting a.config

theorem Line6.paired {config : Option ConfigDescriptor} {isHs : Bool} {playback capture : StreamFormat}
    (h : line6SelectFormat config isHs = some (playback, capture)) : playback.Paired capture := by
  obtain ⟨⟨chosen, outEp, inEp⟩, -, he⟩ := Option.map_eq_some_iff.1 h
  cases he
  exact ⟨rfl, rfl, rfl, Nat.two_pos⟩

/-- The channels of the request are negotiated exactly. -/
theorem NegotiatesPlayback.channels {req : StreamRequest} {f : StreamFormat} (h : NegotiatesPlayback req f) :
    f.channels = req.channels.toNat := by
  cases h with
  | generic config isHs h =>
    unfold selectAltSetting at h
    split at h
    · cases h
    split at h
    · cases h
    obtain ⟨alt, s, iso, -, rfl⟩ := Topology.select_ok h
    rfl
  | line6 config isHs capture hreq h =>
    obtain ⟨⟨chosen, outEp, inEp⟩, -, he⟩ := Option.map_eq_some_iff.1 h
    cases he
    rw [hreq.2.2.1]
    rfl

namespace Host

variable {h : Host w} {a : Answers w}

/-- What holds of the formats of the two directions. -/
def FormatsMeet (Q : StreamFormat → StreamFormat → Prop) (h : Host w) : Prop := Q h.drv.pb.format h.drv.cap.format

theorem FormatsMeet.steady {Q : StreamFormat → StreamFormat → Prop} {h' : Host w} (hq : h.FormatsMeet Q)
    (hsteady : Driver.Steady h.drv h'.drv) : h'.FormatsMeet Q := by
  rw [FormatsMeet, hsteady.playback, hsteady.capture]
  exact hq

/-- Capture runs in the format that the walk finds for playback. -/
def FoundCapture (a : Answers w) : Host w → Prop :=
  FormatsMeet fun playback capture => selectCaptureAltSetting a.config playback = some capture

/-- The formats of the two directions fit each other. -/
def PairedFormats (h : Host w) : Prop := h.drv.pb.format.Paired h.drv.cap.format

theorem PairedFormats.steady {h' : Host w} (hp : h.PairedFormats) (hsteady : Driver.Steady h.drv h'.drv) :
    h'.PairedFormats :=
  FormatsMeet.steady (Q := StreamFormat.Paired) hp hsteady

theorem startCapture_found (ha : a.Parses) (hok : (h.startCapture a).2 = true) : (h.startCapture a).1.FoundCapture a := by
  unfold startCapture at hok ⊢
  split at hok
  · cases hok
  rename_i capture hcapture
  rw [ha] at hcapture
  have hfound : FoundCapture a ((h.claimCapture capture).resetCapture capture) := hcapture
  dsimp only at hok ⊢
  split at hok
  · cases hok
  split at hok
  · cases hok
  split at hok
  · cases hok
  · rename_i hinterface hclaim halt
    rw [if_neg hinterface, if_neg hclaim, if_neg halt]
    exact FormatsMeet.steady hfound (startCapturePump_steady _ a)

theorem startPumps_found (ha : a.Parses) (hok : (h.startPumps a).2 = true) : (h.startPumps a).1.FoundCapture a := by
  have hcapture := startCapture_found (h := h) ha
  unfold startPumps at hok ⊢
  dsimp only at hok ⊢
  generalize h.startCapture a = r₁ at *
  split at hok
  · cases hok
  rename_i hstarted
  have h₁ : r₁.1.FoundCapture a := hcapture (by simpa using hstarted)
  have h₂ : (if r₁.1.drv.implicitMode then r₁.1.primeLayout a else (r₁.1, true)).1.FoundCapture a := by
    split
    · exact FormatsMeet.steady h₁ (primeLayout_steady r₁.1 a)
    · exact h₁
  rw [if_neg hstarted]
  generalize (if r₁.1.drv.implicitMode then r₁.1.primeLayout a else (r₁.1, true)) = r₂ at *
  split at hok
  · cases hok
  rename_i hprimed
  have h₃ := FormatsMeet.steady h₂ (startIsoPump_steady r₂.1 a)
  rw [if_neg hprimed]
  generalize r₂.1.startIsoPump a = r₃ at *
  split at hok
  · cases hok
  · rename_i hprepared
    rw [if_neg hprepared]
    exact h₃

theorem line6Pumps_meets {Q : StreamFormat → StreamFormat → Prop} {playback capture : StreamFormat}
    (hq : Q playback capture) (hok : (h.line6Pumps a playback capture).2 = true) :
    (h.line6Pumps a playback capture).1.FormatsMeet Q := by
  have hreset : FormatsMeet Q { h.withDriver (h.drv.line6Reset playback capture) with eventThread := true } := hq
  have h₁ := hreset.steady (startCapturePump_steady _ a)
  have hfail (g : Host w) (code : StartError) (hno : (g.line6Fail a code).2 = true) : False := by cases hno
  unfold line6Pumps at hok ⊢
  dsimp only at hok ⊢
  split at hok
  · exact (hfail _ _ hok).elim
  rename_i halt
  split at hok
  · exact (hfail _ _ hok).elim
  rename_i hvendor
  rw [if_neg halt, if_neg hvendor]
  generalize startCapturePump { h.withDriver (h.drv.line6Reset playback capture) with eventThread := true } a = r₁ at *
  split at hok
  · exact (hfail _ _ hok).elim
  rename_i hstarted
  have h₂ := h₁.steady (primeLayout_steady r₁.1 a)
  rw [if_neg hstarted]
  generalize r₁.1.primeLayout a = r₂ at *
  split at hok
  · exact (hfail _ _ hok).elim
  rename_i hprimed
  have h₃ := h₂.steady (startIsoPump_steady r₂.1 a)
  rw [if_neg hprimed]
  generalize r₂.1.startIsoPump a = r₃ at *
  split at hok
  · exact (hfail _ _ hok).elim
  · rename_i hprepared
    rw [if_neg hprepared]
    exact h₃

/-- Where the formats of a start that succeeds come from. -/
theorem startDuplex_found (ha : a.Parses) {req : StreamRequest} (hok : (h.startDuplex a req).2 = true) :
    (h.line6Profile = true → (h.startDuplex a req).1.FormatsMeet fun playback capture =>
        line6SelectFormat a.config a.isHs = some (playback, capture)) ∧
      (h.line6Profile = false → (h.startDuplex a req).1.FoundCapture a) := by
  unfold startDuplex line6StartDuplex at hok ⊢
  cases hprofile : h.line6Profile with
  | true =>
    refine ⟨fun _ => ?_, fun hno => (by cases hno)⟩
    rw [hprofile, if_pos rfl] at hok
    rw [if_pos rfl]
    by_cases hreq : line6Request req = true
    · rw [if_pos hreq] at hok ⊢
      split at hok
      · cases hok
      rename_i hidle
      rw [if_neg hidle]
      split at hok
      · cases hok
      rename_i playback capture hsel
      have hfound : line6SelectFormat a.config a.isHs = some (playback, capture) := by
        split at hsel
        · exact hsel
        · cases hsel
      split at hok
      · rename_i hheld
        rw [if_pos hheld]
        exact line6Pumps_meets hfound hok
      rename_i hheld
      split at hok
      · cases hok
      · rename_i hclaim
        rw [if_neg hheld, if_neg hclaim]
        exact line6Pumps_meets hfound hok
    · rw [if_neg hreq] at hok
      cases hok
  | false =>
    refine ⟨fun hno => (by cases hno), fun _ => ?_⟩
    rw [hprofile, if_neg Bool.false_ne_true] at hok
    rw [if_neg Bool.false_ne_true]
    dsimp only at hok ⊢
    generalize h.start a req = r at *
    split at hok
    · cases hok
    · rename_i hprepared
      rw [if_neg hprepared]
      exact startPumps_found ha hok

/-- A start that succeeds, by either profile, has one format in both directions. -/
theorem startDuplex_paired (ha : a.Parses) {req : StreamRequest} (hok : (h.startDuplex a req).2 = true) :
    (h.startDuplex a req).1.PairedFormats := by
  obtain ⟨hline6, hgeneric⟩ := startDuplex_found ha hok
  cases hprofile : h.line6Profile with
  | true => exact Line6.paired (hline6 hprofile)
  | false => exact selectCaptureAltSetting_paired _ (hgeneric hprofile)

end Host

/-- Behind the check of the request and a start that has negotiated, the check of the formats is one of the number of
capture channels. -/
theorem DirectUsbOutput.formatRefused_iff {sampleRate bitsPerSample bytesPerSample channels outputPair : Int}
    {playback capture : StreamFormat}
    (hrequest : requestRefused sampleRate bitsPerSample bytesPerSample channels outputPair = false)
    (hneg : NegotiatesPlayback ⟨sampleRate, bitsPerSample, channels, bytesPerSample⟩ playback)
    (hpaired : playback.Paired capture) :
    formatRefused outputPair playback capture = true ↔ kMaxDeviceChannels < capture.channels := by
  simp only [requestRefused, decide_eq_false_iff_not, not_or, not_and, not_lt, not_le, Decidable.not_not] at hrequest
  obtain ⟨-, hbits, hlow, hhigh, hfew, hmany, -, hpair⟩ := hrequest
  have hdepth : capture.bitsPerSample = bitsPerSample.toNat := hpaired.bitsPerSample.trans hneg.bitsPerSample
  have hchannels : playback.channels = channels.toNat := hneg.channels
  have hcases : bitsPerSample = 16 ∨ bitsPerSample = 24 ∨ bitsPerSample = 32 := by
    by_cases h16 : bitsPerSample = 16
    · exact .inl h16
    by_cases h24 : bitsPerSample = 24
    · exact .inr (.inl h24)
    · exact .inr (.inr (hbits h16 h24))
  have hpos : 0 < validBytes bitsPerSample.toNat := by rcases hcases with rfl | rfl | rfl <;> decide
  have hsubslot : (playback.bytesPerSample : Int) = bytesPerSample :=
    hneg.bytesPerSample (show (0 : Int) < bytesPerSample by omega)
  have hbytes := hpaired.bytesPerSample
  have hsome := hpaired.channels
  simp only [formatRefused, decide_eq_true_eq, hdepth]
  constructor
  · rintro (h | h | h | h | ⟨h16, h24, h32⟩ | h | h | h) <;> omega
  · exact fun h => .inr (.inr (.inr (.inl h)))

/-- A start is of a device that is parsed. -/
def AdapterAct.Parses {α : Type} : AdapterAct w α → Prop
  | .start _ a₂ _ _ _ _ _ _ => a₂.Parses
  | _ => True

namespace Adapter

variable {s : Adapter w} {α : Type} {quantise : (bits : Nat) → α → BitVec bits}

/-- While quanta are accepted both directions run in one format, and the adapter can take apart all capture channels. -/
structure Duplex (s : Adapter w) : Prop extends s.Agrees where
  paired : s.accepting = true → s.host.PairedFormats ∧ s.host.drv.cap.format.channels ≤ kMaxDeviceChannels

/-- What becomes of a start that is not refused at once. -/
theorem start_outcome (s : Adapter w) (a₁ a₂ a₃ : Answers w)
    {sampleRate bitsPerSample bytesPerSample channels outputPair : Int} (hopen : s.host.device = true)
    (hrequest : DirectUsbOutput.requestRefused sampleRate bitsPerSample bytesPerSample channels outputPair = false) :
    let r := (s.stop a₁).host.startDuplex a₂ ⟨sampleRate, bitsPerSample, channels, bytesPerSample⟩
    let started := s.start a₁ a₂ a₃ sampleRate bitsPerSample bytesPerSample channels outputPair
    started.2 = (r.2 && !DirectUsbOutput.formatRefused outputPair r.1.drv.pb.format r.1.drv.cap.format) ∧
      (started.2 = true → started.1.host = r.1) := by
  have hguard : ¬((!s.host.device) = true ∨
      DirectUsbOutput.requestRefused sampleRate bitsPerSample bytesPerSample channels outputPair = true) := by
    rw [hopen, hrequest]
    decide
  unfold start
  rw [if_neg hguard]
  dsimp only
  generalize (s.stop a₁).host.startDuplex a₂ ⟨sampleRate, bitsPerSample, channels, bytesPerSample⟩ = r
  obtain ⟨host, ok⟩ := r
  cases ok with
  | false => exact ⟨rfl, fun hok => (by cases hok)⟩
  | true =>
    have hok : ¬(!(host, true).2) = true := Bool.false_ne_true
    rw [if_neg hok]
    cases DirectUsbOutput.formatRefused outputPair host.drv.pb.format host.drv.cap.format with
    | false => exact ⟨rfl, fun _ => rfl⟩
    | true => exact ⟨rfl, fun hok => (by cases hok)⟩

/-- On a parsed device a start that gets as far as the driver succeeds if and only if the driver starts and has found no more
capture channels than the adapter can take. -/
theorem start_duplex (h : s.Agrees) (a₁ a₃ : Answers w) {a₂ : Answers w}
    {sampleRate bitsPerSample bytesPerSample channels outputPair : Int} (ha : a₂.Parses) (hopen : s.host.device = true)
    (hrequest : DirectUsbOutput.requestRefused sampleRate bitsPerSample bytesPerSample channels outputPair = false) :
    let r := (s.stop a₁).host.startDuplex a₂ ⟨sampleRate, bitsPerSample, channels, bytesPerSample⟩
    let started := s.start a₁ a₂ a₃ sampleRate bitsPerSample bytesPerSample channels outputPair
    (started.2 = true ↔ r.2 = true ∧ r.1.drv.cap.format.channels ≤ kMaxDeviceChannels) ∧
      (started.2 = true → started.1.host = r.1 ∧ r.1.PairedFormats) := by
  intro r started
  obtain ⟨hresult, hhost⟩ := start_outcome s a₁ a₂ a₃ hopen hrequest
  have hneg : r.2 = true → NegotiatesPlayback ⟨sampleRate, bitsPerSample, channels, bytesPerSample⟩ r.1.drv.pb.format :=
    (Host.startDuplex_negotiated (h.stop a₁).fits a₂ ⟨sampleRate, bitsPerSample, channels, bytesPerSample⟩).2
  have hpaired : r.2 = true → r.1.PairedFormats := Host.startDuplex_paired ha
  have hiff : started.2 = true ↔ r.2 = true ∧ r.1.drv.cap.format.channels ≤ kMaxDeviceChannels := by
    rw [hresult, Bool.and_eq_true, Bool.not_eq_true']
    refine and_congr_right fun hr => ?_
    have hrefused := DirectUsbOutput.formatRefused_iff hrequest (hneg hr) (hpaired hr)
    rw [← Bool.not_eq_true, hrefused, not_lt]
  exact ⟨hiff, fun hok => ⟨hhost hok, hpaired (hiff.1 hok).1⟩⟩

theorem Duplex.step (h : s.Duplex) {a : AdapterAct w α} (ha : a.Parses) : (s.step quantise a).Duplex := by
  refine ⟨h.toAgrees.step a, fun hon => ?_⟩
  cases hanew : s.startsAnew a with
  | true =>
    cases a with
    | start a₁ a₂ a₃ sampleRate bitsPerSample bytesPerSample channels outputPair =>
      -- a start that succeeds has passed its first guard
      obtain ⟨hopen, hrequest⟩ : s.host.device = true ∧
          DirectUsbOutput.requestRefused sampleRate bitsPerSample bytesPerSample channels outputPair = false := by
        by_contra hno
        have hrefused : s.start a₁ a₂ a₃ sampleRate bitsPerSample bytesPerSample channels outputPair = (s, false) :=
          if_pos (by simpa [not_and_or, -not_and] using hno)
        have hfailed : (s.start a₁ a₂ a₃ sampleRate bitsPerSample bytesPerSample channels outputPair).2 = false := by
          rw [hrefused]
        cases hfailed.symm.trans hanew
      obtain ⟨hiff, hstarted⟩ := start_duplex h.toAgrees a₁ a₃ ha hopen hrequest
      obtain ⟨hhost, hpaired⟩ := hstarted hanew
      show Host.PairedFormats (s.start a₁ a₂ a₃ sampleRate bitsPerSample bytesPerSample channels outputPair).1.host ∧
        (s.start a₁ a₂ a₃ sampleRate bitsPerSample bytesPerSample channels outputPair).1.host.drv.cap.format.channels ≤ _
      rw [hhost]
      exact ⟨hpaired, (hiff.1 hanew).2⟩
    | _ => cases hanew
  | false =>
    rcases h.toAgrees.kept quantise hanew with ⟨hquiet, -⟩ | ⟨-, haccepting, hsteady⟩
    · cases hquiet.symm.trans hon
    · obtain ⟨hpaired, hchannels⟩ := h.paired (haccepting ▸ hon)
      exact ⟨hpaired.steady hsteady, hsteady.capture.symm ▸ hchannels⟩

variable (quantise) in
/-- In every history whose starts are of devices that are parsed: while quanta are accepted both directions run at one rate
with one subslot, and the last check of `start` undoes a session for one reason only, more capture channels than the
adapter can take. -/
theorem duplex_in_one_format (z : RingSize w) {as : List (AdapterAct w α)} (has : ∀ a ∈ as, a.Parses) (a₁ a₃ : Answers w) {a₂ : Answers w}
    (ha : a₂.Parses) {sampleRate bitsPerSample bytesPerSample channels outputPair : Int}
    (hrequest : DirectUsbOutput.requestRefused sampleRate bitsPerSample bytesPerSample channels outputPair = false) :
    let s := run (step quantise) (constructed z) as
    let r := (s.stop a₁).host.startDuplex a₂ ⟨sampleRate, bitsPerSample, channels, bytesPerSample⟩
    (s.accepting = true → s.host.drv.pb.format.Paired s.host.drv.cap.format ∧
      s.host.drv.cap.format.channels ≤ kMaxDeviceChannels) ∧
    ((s.start a₁ a₂ a₃ sampleRate bitsPerSample bytesPerSample channels outputPair).2 = true ↔
      s.host.device = true ∧ r.2 = true ∧ r.1.drv.cap.format.channels ≤ kMaxDeviceChannels) := by
  intro s r
  have hinit : (constructed z).Duplex := ⟨Agrees.run quantise z [], fun hon => (by cases hon)⟩
  have h : s.Duplex :=
    Meets.invariant (C := fun _ a => a.Parses) (I := Duplex) (fun _ _ ha h => h.step ha) (.of_forall has _) hinit
  refine ⟨h.paired, ?_⟩
  by_cases hopen : s.host.device = true
  · rw [(start_duplex h.toAgrees a₁ a₃ ha hopen hrequest).1]
    exact (and_iff_right hopen).symm
  · have hrefused : s.start a₁ a₂ a₃ sampleRate bitsPerSample bytesPerSample channels outputPair = (s, false) :=
      if_pos (.inl (by simpa using hopen))
    rw [hrefused]
    exact iff_of_false Bool.false_ne_true fun hyes => hopen hyes.1

/-- A UAC1 device with a stereo output and a mono input, at 48 kHz and 16 bits. -/
def uac1Guitar : ConfigDescriptor where
  interface :=
    [[⟨0, 0, 1, 1, [], [9, 0x24, 1, 0x00, 0x01, 0, 0, 1, 1]⟩],
      [⟨1, 1, 1, 2, [⟨0x01, 0x09, 200, 1, 0⟩], [7, 0x24, 1, 1, 1, 1, 0, 11, 0x24, 2, 1, 2, 2, 16, 1, 0x80, 0xBB, 0x00]⟩],
      [⟨2, 1, 1, 2, [⟨0x81, 0x05, 100, 1, 0⟩], [7, 0x24, 1, 2, 1, 1, 0, 11, 0x24, 2, 1, 1, 2, 16, 1, 0x80, 0xBB, 0x00]⟩]]

def parsedGuitar : Answers 64 where
  config := some uac1Guitar
  isHs := false
  selectCaptureAltSetting := selectCaptureAltSetting (some uac1Guitar)
  mps := 100
  maxPacket := 200

/-- It starts in one format, with its one input channel. -/
theorem duplex_in_one_format_mono :
    let quantise := fun bits (x : Int) => BitVec.ofInt bits x
    let s := run (step quantise) (constructed defaultRing)
      [.open_ {} {} {} {} {} 5 0, .start {} parsedGuitar {} 48000 16 2 2 0]
    s.accepting = true ∧ s.host.drv.cap.format.channels = 1 ∧ s.host.drv.pb.format.Paired s.host.drv.cap.format := by
  have has : ∀ a ∈ [AdapterAct.open_ {} {} {} {} {} 5 0, .start {} parsedGuitar {} 48000 16 2 2 0],
      AdapterAct.Parses (α := Int) a := by
    intro a ha
    rcases List.mem_cons.1 ha with rfl | ha
    · trivial
    · rw [List.mem_singleton.1 ha]
      exact rfl
  have hparses : parsedGuitar.Parses := rfl
  have hrequest : DirectUsbOutput.requestRefused 48000 16 2 2 0 = false := by decide
  refine ⟨by decide +kernel, by decide +kernel, ?_⟩
  exact ((duplex_in_one_format _ defaultRing has {} {} hparses hrequest).1 (by decide +kernel)).1

end Adapter

end UacDriver

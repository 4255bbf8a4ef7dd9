import UacDriver.DescriptorReads

/-!
# Reads of the selections

`selectAltSetting` and the two parsers of the capture side with every read checked; the latter appear here first, in
this form. Their guards cover all of their reads, so that a configuration is read inside its descriptors exactly when
`enumerateFormats` keeps no short UAC1 format descriptor.
-/

namespace UacDriver

open Runs

/-! ### `selectAltSetting` -/

/-- The entities that both selections read from an AudioControl setting: clocks and terminals. -/
def Topology.entity? (t : Topology) (d : Descriptor) : Option Topology := do
  if (← d.isClassDescriptor? CS_INTERFACE AC_CLOCK_SOURCE) && 4 ≤ d.len then
    let id ← d.read? 3
    return { t with clockEntities := t.clockEntities ++ [⟨id, AC_CLOCK_SOURCE, 0⟩] }
  else if (← d.isClassDescriptor? CS_INTERFACE AC_CLOCK_SELECTOR) && 6 ≤ d.len then
    let id ← d.read? 3
    let baseId ← d.read? 5
    return { t with clockEntities := t.clockEntities ++ [⟨id, AC_CLOCK_SELECTOR, baseId⟩] }
  else if (← d.isClassDescriptor? CS_INTERFACE AC_CLOCK_MULTIPLIER) && 5 ≤ d.len then
    let id ← d.read? 3
    let baseId ← d.read? 4
    return { t with clockEntities := t.clockEntities ++ [⟨id, AC_CLOCK_MULTIPLIER, baseId⟩] }
  else if (← d.isClassDescriptor? CS_INTERFACE AC_INPUT_TERMINAL) && 8 ≤ d.len then
    let id ← d.read? 3
    let clockId ← d.read? 7
    return { t with terminals := t.terminals ++ [⟨id, clockId⟩] }
  else if (← d.isClassDescriptor? CS_INTERFACE AC_OUTPUT_TERMINAL) && 9 ≤ d.len then
    let id ← d.read? 3
    let clockId ← d.read? 8
    return { t with terminals := t.terminals ++ [⟨id, clockId⟩] }
  else return t

def Topology.descriptor? (t : Topology) (d : Descriptor) : Option Topology := do
  if (← d.isClassDescriptor? CS_INTERFACE AC_HEADER) && 5 ≤ d.len then
    let b₃ ← d.read? 3
    let b₄ ← d.read? 4
    return { t with uacVersion := b₃ ||| b₄ <<< 8 }
  else t.entity? d

def Topology.entity (t : Topology) (d : Descriptor) : Topology :=
  if d.isClassDescriptor CS_INTERFACE AC_CLOCK_SOURCE && 4 ≤ d.len then
    { t with clockEntities := t.clockEntities ++ [⟨d.byte 3, AC_CLOCK_SOURCE, 0⟩] }
  else if d.isClassDescriptor CS_INTERFACE AC_CLOCK_SELECTOR && 6 ≤ d.len then
    { t with clockEntities := t.clockEntities ++ [⟨d.byte 3, AC_CLOCK_SELECTOR, d.byte 5⟩] }
  else if d.isClassDescriptor CS_INTERFACE AC_CLOCK_MULTIPLIER && 5 ≤ d.len then
    { t with clockEntities := t.clockEntities ++ [⟨d.byte 3, AC_CLOCK_MULTIPLIER, d.byte 4⟩] }
  else if d.isClassDescriptor CS_INTERFACE AC_INPUT_TERMINAL && 8 ≤ d.len then
    { t with terminals := t.terminals ++ [⟨d.byte 3, d.byte 7⟩] }
  else if d.isClassDescriptor CS_INTERFACE AC_OUTPUT_TERMINAL && 9 ≤ d.len then
    { t with terminals := t.terminals ++ [⟨d.byte 3, d.byte 8⟩] }
  else t

theorem Topology.entity?_eq (t : Topology) (d : Descriptor) : t.entity? d = some (t.entity d) := by
  unfold entity? entity
  simp only [Descriptor.isClassDescriptor?_eq, Option.bind_eq_bind, Option.bind_some, Option.pure_def]
  refine guarded_eq (fun h => ?source) (guarded_eq (fun h => ?selector) (guarded_eq (fun h => ?multiplier)
    (guarded_eq (fun h => ?input) (guarded_eq (fun h => ?output) rfl))))
  case source => rw [Descriptor.read?_of_lt (by omega), Option.bind_some]
  all_goals
    rw [Descriptor.read?_of_lt (by omega), Option.bind_some, Descriptor.read?_of_lt (by omega), Option.bind_some]

theorem Topology.descriptor?_eq (t : Topology) (d : Descriptor) : t.descriptor? d = some (t.descriptor d) := by
  have hentity : t.descriptor d = if d.isClassDescriptor CS_INTERFACE AC_HEADER && 5 ≤ d.len then
      { t with uacVersion := d.byte 3 ||| d.byte 4 <<< 8 } else t.entity d := rfl
  rw [hentity]
  unfold descriptor?
  simp only [Descriptor.isClassDescriptor?_eq, Option.bind_eq_bind, Option.bind_some, Option.pure_def]
  refine guarded_eq (fun h => ?_) (t.entity?_eq d)
  rw [Descriptor.read?_of_lt (by omega), Descriptor.read?_of_lt (by omega)]
  rfl

/-- The first AudioControl setting, walked with checked reads. -/
def ConfigDescriptor.topology? (c : ConfigDescriptor) : Option (Option Topology) :=
  match c.altsettings.find? InterfaceDescriptor.isAudioControl with
  | none => some none
  | some alt => do
    let ds ← walkExtra? alt.extra
    (ds.foldlM Topology.descriptor? { controlIface := alt.bInterfaceNumber }).map some

theorem ConfigDescriptor.topology?_eq (c : ConfigDescriptor) : c.topology? = some c.topology := by
  unfold topology? topology
  cases c.altsettings.find? InterfaceDescriptor.isAudioControl with
  | none => rfl
  | some alt =>
    simp only [walkExtra?_eq, Option.bind_eq_bind, Option.bind_some, Option.map_some,
      foldlM_eq_some (fun (t : Topology) d _ => t.descriptor?_eq d)]

/-- All frequencies of a table are read; the copy of the walk that keeps no inventory stops at the first match. -/
def Descriptor.uac1Supports? (d : Descriptor) (sampleRateHz : Int) (supported : Bool) : Option Bool := do
  let kind ← d.read? 7
  if kind = 0 ∧ 14 ≤ d.len then
    let lo ← d.read24? 8
    let hi ← d.read24? 11
    return lo ≤ asUint32 sampleRateHz && asUint32 sampleRateHz ≤ hi
  else if 0 < kind then
    let table ← ((List.range kind).takeWhile fun k => 8 + k * 3 + 3 ≤ d.len).mapM fun k => d.read24? (8 + k * 3)
    return table.any fun (hz : Nat) => (hz : Int) == sampleRateHz
  else return supported

theorem Descriptor.uac1Supports?_eq {d : Descriptor} (h : 8 ≤ d.len) (sampleRateHz : Int) (supported : Bool) :
    d.uac1Supports? sampleRateHz supported = some (d.uac1Supports sampleRateHz supported) := by
  unfold uac1Supports? uac1Supports
  simp only [read?_of_lt (show 7 < d.len by omega), Option.bind_eq_bind, Option.bind_some, Option.pure_def]
  split
  · rename_i hrange
    rw [read24?_of_lt (by omega), read24?_of_lt (by omega)]
    rfl
  split
  · rw [mapM_read24? (fun k => 8 + k * 3), Option.bind_some, List.any_map]
    rfl
  · rfl

/-- The `FORMAT_TYPE` branch of the callback. -/
def AltScan.format? (uacVersion : Nat) (sampleRateHz : Int) (s : AltScan) (d : Descriptor) : Option AltScan := do
  if 0x0200 ≤ uacVersion then
    if 6 ≤ d.len then
      let altSubslot ← d.read? 4
      let altBits ← d.read? 5
      return { s with altSubslot, altBits }
    else return s
  else if 7 ≤ d.len then
    let altChannels ← d.read? 4
    let altSubslot ← d.read? 5
    let altBits ← d.read? 6
    let s := { s with altChannels, altSubslot, altBits }
    if 8 ≤ d.len then
      let rateSupportedByDescriptor ← d.uac1Supports? sampleRateHz s.rateSupportedByDescriptor
      return { s with rateSupportedByDescriptor }
    else return s
  else return s

def AltScan.descriptor? (uacVersion : Nat) (sampleRateHz : Int) (s : AltScan) (d : Descriptor) : Option AltScan := do
  if ← d.isClassDescriptor? CS_INTERFACE AS_GENERAL then
    if 0x0200 ≤ uacVersion ∧ 16 ≤ d.len then
      let altTerminalLink ← d.read? 3
      let altChannels ← d.read? 10
      return { s with altTerminalLink, altChannels }
    else return s
  else if (← d.isClassDescriptor? CS_INTERFACE AS_FORMAT_TYPE) && 4 ≤ d.len then
    if (← d.read? 3) == FORMAT_TYPE_I then s.format? uacVersion sampleRateHz d
    else return s
  else return s

theorem AltScan.descriptor?_eq (uacVersion : Nat) (sampleRateHz : Int) (s : AltScan) (d : Descriptor) :
    s.descriptor? uacVersion sampleRateHz d = some (s.descriptor uacVersion sampleRateHz d) := by
  have hformat : s.format? uacVersion sampleRateHz d = some (if 0x0200 ≤ uacVersion then
        if 6 ≤ d.len then { s with altSubslot := d.byte 4, altBits := d.byte 5 } else s
      else if 7 ≤ d.len then
        { s with
          altChannels := d.byte 4, altSubslot := d.byte 5, altBits := d.byte 6
          rateSupportedByDescriptor := if 8 ≤ d.len then d.uac1Supports sampleRateHz s.rateSupportedByDescriptor
            else s.rateSupportedByDescriptor }
      else s) := by
    unfold format?
    simp only [Option.bind_eq_bind, Option.pure_def]
    split
    · split
      · rw [Descriptor.read?_of_lt (by omega), Descriptor.read?_of_lt (by omega)]
        rfl
      · rfl
    split
    · rw [Descriptor.read?_of_lt (by omega), Descriptor.read?_of_lt (by omega), Descriptor.read?_of_lt (by omega)]
      simp only [Option.bind_some]
      split
      · rw [Descriptor.uac1Supports?_eq (by omega)]
        rfl
      · rfl
    · rfl
  unfold descriptor? descriptor Descriptor.isFormatTypeI
  simp only [Descriptor.isClassDescriptor?_eq, Option.bind_eq_bind, Option.bind_some, Option.pure_def]
  split
  · split
    · rw [Descriptor.read?_of_lt (by omega), Descriptor.read?_of_lt (by omega)]
      rfl
    · rfl
  split
  · rename_i h
    have := le_len_of_and h
    rw [Descriptor.read?_of_lt (by omega), h, Option.bind_some, Bool.true_and]
    split
    · exact hformat
    · rfl
  · rename_i h
    rw [Bool.not_eq_true] at h
    rw [h]
    rfl

def InterfaceDescriptor.scanAlt? (alt : InterfaceDescriptor) (uacVersion : Nat) (sampleRateHz : Int) :
    Option AltScan := do
  let ds ← walkExtra? alt.extra
  ds.foldlM (AltScan.descriptor? uacVersion sampleRateHz) { rateSupportedByDescriptor := 0x0200 ≤ uacVersion }

theorem InterfaceDescriptor.scanAlt?_eq (alt : InterfaceDescriptor) (uacVersion : Nat) (sampleRateHz : Int) :
    alt.scanAlt? uacVersion sampleRateHz = some (alt.scanAlt uacVersion sampleRateHz) := by
  unfold scanAlt? scanAlt
  rw [walkExtra?_eq]
  exact foldlM_eq_some (fun s d _ => s.descriptor?_eq uacVersion sampleRateHz d) _

def InterfaceDescriptor.admits? (alt : InterfaceDescriptor) (uacVersion : Nat) (req : StreamRequest) :
    Option (Option (AltScan × Endpoint)) :=
  if !alt.isAudioStream then some none
  else (alt.scanAlt? uacVersion req.sampleRateHz).map fun s =>
    if 0 < req.bytesPerSample ∧ s.altSubslot ≠ req.bytesPerSample then none
    else if s.altChannels ≠ req.channels ∨ s.altBits ≠ req.bitsPerSample then none
    else if !s.rateSupportedByDescriptor then none
    else (alt.endpoint.find? Endpoint.isOutData).map fun iso => (s, iso)

theorem InterfaceDescriptor.admits?_eq (alt : InterfaceDescriptor) (uacVersion : Nat) (req : StreamRequest) :
    alt.admits? uacVersion req = some (alt.admits uacVersion req) := by
  unfold admits? admits
  split
  · rfl
  · rw [alt.scanAlt?_eq]
    rfl

def Topology.select? (t : Topology) (isHs : Bool) (req : StreamRequest) :
    List InterfaceDescriptor → Option (Except SelectError StreamFormat)
  | [] => some (.error .noMatch)
  | alt :: rest => do
    match ← alt.admits? t.uacVersion req with
    | none => t.select? isHs req rest
    | some (s, iso) =>
      match iso.fits isHs req s.altSubslot with
      | none => return .error .undefined
      | some false => t.select? isHs req rest
      | some true => return .ok (t.streamFormat isHs req alt s iso)

theorem Topology.select?_eq (t : Topology) (isHs : Bool) (req : StreamRequest) (alts : List InterfaceDescriptor) :
    t.select? isHs req alts = some (t.select isHs req alts) := by
  induction alts with
  | nil => rfl
  | cons alt rest ih =>
    rw [select?, select, alt.admits?_eq, Option.bind_eq_bind, Option.bind_some]
    cases alt.admits t.uacVersion req with
    | none => exact ih
    | some found =>
      dsimp only
      cases found.2.fits isHs req found.1.altSubslot with
      | none => rfl
      | some fits =>
        cases fits with
        | false => exact ih
        | true => rfl

def selectAltSetting? (config : Option ConfigDescriptor) (isHs : Bool) (req : StreamRequest) :
    Option (Except SelectError StreamFormat) :=
  match config with
  | none => some (.error .noConfig)
  | some c => do
    match ← c.topology? with
    | none => return .error .noAudioControl
    | some t => t.select? isHs req c.altsettings

theorem selectAltSetting?_eq (config : Option ConfigDescriptor) (isHs : Bool) (req : StreamRequest) :
    selectAltSetting? config isHs req = some (selectAltSetting config isHs req) := by
  unfold selectAltSetting? selectAltSetting
  cases config with
  | none => rfl
  | some c =>
    dsimp only
    rw [c.topology?_eq, Option.bind_eq_bind, Option.bind_some]
    cases c.topology with
    | none => rfl
    | some t => exact t.select?_eq isHs req c.altsettings

/-! ### `captureChannelCount` -/

/-- The locals of `captureChannelCount` for one alternate setting. -/
structure ChannelScan where
  channels : Nat := 0
  pcm : Bool := false
  hasUac2General : Bool := false

def ChannelScan.general? (s : ChannelScan) (d : Descriptor) : Option ChannelScan := do
  if (← d.isClassDescriptor? CS_INTERFACE AS_GENERAL) && 11 ≤ d.len then
    let channels ← d.read? 10
    return { s with channels, hasUac2General := true }
  else return s

def ChannelScan.format? (s : ChannelScan) (d : Descriptor) : Option ChannelScan := do
  if ← d.isOffer? then
    let s := { s with pcm := true }
    if !s.hasUac2General && 7 ≤ d.len then
      let channels ← d.read? 4
      return if 0 < channels then { s with channels } else s
    else return s
  else return s

def ChannelScan.descriptor? (s : ChannelScan) (d : Descriptor) : Option ChannelScan := do
  (← s.general? d).format? d

def captureAltsetting? (maximum : Nat) (alt : InterfaceDescriptor) : Option Nat :=
  if !alt.isAudioStream then some maximum
  else do
    let ds ← walkExtra? alt.extra
    let s ← ds.foldlM ChannelScan.descriptor? {}
    let input := alt.endpoint.any fun ep => ep.isIsochronous && ep.isIn
    return if input && s.pcm && maximum < s.channels then s.channels else maximum

def captureChannelCount? (device line6Profile : Bool) (config : Option ConfigDescriptor) : Option Nat :=
  if !device then some 0
  else if line6Profile then some 2
  else match config with
    | none => some 0
    | some c => c.altsettings.foldlM captureAltsetting? 0

theorem ChannelScan.descriptor?_isSome (s : ChannelScan) (d : Descriptor) : (s.descriptor? d).isSome := by
  have hgeneral : (s.general? d).isSome := by
    unfold general?
    rw [Descriptor.isClassDescriptor?_eq, Option.bind_eq_bind, Option.bind_some]
    refine guarded_isSome (fun h => ?_) rfl
    rw [Descriptor.read?_of_lt (by omega)]
    rfl
  have hformat (s : ChannelScan) : (s.format? d).isSome := by
    unfold format?
    rw [Descriptor.isOffer?_eq, Option.bind_eq_bind, Option.bind_some]
    split
    · rename_i h
      have := Descriptor.six_le_of_isOffer h
      dsimp only
      split
      · rw [Descriptor.read?_of_lt (by omega)]
        rfl
      · rfl
    · rfl
  exact bind_isSome hgeneral hformat

theorem captureAltsetting?_isSome (maximum : Nat) (alt : InterfaceDescriptor) :
    (captureAltsetting? maximum alt).isSome := by
  unfold captureAltsetting?
  split
  · rfl
  · rw [walkExtra?_eq, Option.bind_eq_bind, Option.bind_some]
    exact bind_isSome (foldlM_isSome (fun s d _ => ChannelScan.descriptor?_isSome s d) _) fun _ => rfl

theorem captureChannelCount?_isSome (device line6Profile : Bool) (config : Option ConfigDescriptor) :
    (captureChannelCount? device line6Profile config).isSome := by
  unfold captureChannelCount?
  split
  · rfl
  split
  · rfl
  cases config with
  | none => rfl
  | some c => exact foldlM_isSome (fun maximum alt _ => captureAltsetting?_isSome maximum alt) 0

/-! ### `selectCaptureAltSetting` -/

/-- The entities of every AudioControl setting, for a UAC2 playback format. -/
def ConfigDescriptor.captureTopology? (c : ConfigDescriptor) (playback : StreamFormat) : Option Topology :=
  if 0x0200 ≤ playback.uacVersion then
    (c.altsettings.filter InterfaceDescriptor.isAudioControl).foldlM (fun t alt => do
      let ds ← walkExtra? alt.extra
      ds.foldlM Topology.entity? t) {}
  else some {}

/-- The clock of a terminal; unlike for playback there is no other way to one. -/
def Topology.captureClock (t : Topology) (terminalId : Nat) : Nat :=
  followClock t.clockEntities 4 (((t.terminals.find? fun tc => tc.termId == terminalId).map TermClock.clockId).getD 0)

/-- The locals of `selectCaptureAltSetting` for one alternate setting. -/
structure CaptureScan where
  channels : Nat := 0
  bits : Nat := 0
  bytes : Nat := 0
  terminalLink : Nat := 0

def CaptureScan.general? (uacVersion : Nat) (s : CaptureScan) (d : Descriptor) : Option CaptureScan := do
  if (← d.isClassDescriptor? CS_INTERFACE AS_GENERAL) && 0x0200 ≤ uacVersion && 11 ≤ d.len then
    let terminalLink ← if 16 ≤ d.len then d.read? 3 else some 0
    let channels ← d.read? 10
    return { s with terminalLink, channels }
  else return s

def CaptureScan.format? (uacVersion : Nat) (s : CaptureScan) (d : Descriptor) : Option CaptureScan := do
  if ← d.isOffer? then
    if 0x0200 ≤ uacVersion then
      let bytes ← d.read? 4
      let bits ← d.read? 5
      return { s with bytes, bits }
    else if 7 ≤ d.len then
      let channels ← d.read? 4
      let bytes ← d.read? 5
      let bits ← d.read? 6
      return { s with channels, bytes, bits }
    else return s
  else return s

def CaptureScan.descriptor? (uacVersion : Nat) (s : CaptureScan) (d : Descriptor) : Option CaptureScan := do
  (← s.general? uacVersion d).format? uacVersion d

/-- The alternate setting and the endpoint chosen so far. -/
structure CaptureChoice where
  chosen : InterfaceDescriptor
  chosenEp : Endpoint
  implicitFeedback : Bool
  channels : Nat
  clock : Nat

/-- The endpoint tests: an isochronous input for data or implicit feedback, and the synchronisation endpoint of a
playback format that has one and no feedback endpoint. -/
def StreamFormat.takesCapture (playback : StreamFormat) (ep : Endpoint) : Bool :=
  ep.isIsochronous && ep.isIn &&
    !(playback.feedbackEndpointAddress == 0 && playback.syncEndpointAddress != 0 &&
      ep.bEndpointAddress.toNat != playback.syncEndpointAddress) &&
    (ep.usage == 0 || ep.usage == 2)

/-- An implicit-feedback endpoint is preferred to one that is not. -/
def StreamFormat.chooseEndpoint (playback : StreamFormat) (alt : InterfaceDescriptor) (channels clock : Nat)
    (choice : Option CaptureChoice) (ep : Endpoint) : Option CaptureChoice :=
  if playback.takesCapture ep && (choice.isNone || (ep.usage == 2 && !choice.any CaptureChoice.implicitFeedback)) then
    some ⟨alt, ep, ep.usage == 2, channels, clock⟩
  else choice

def Topology.chooseCapture? (t : Topology) (playback : StreamFormat) (choice : Option CaptureChoice)
    (alt : InterfaceDescriptor) : Option (Option CaptureChoice) :=
  if !alt.isAudioStream then some choice
  else do
    let ds ← walkExtra? alt.extra
    let s ← ds.foldlM (CaptureScan.descriptor? playback.uacVersion) {}
    if playback.terminalLink ≠ 0 ∧ s.terminalLink = playback.terminalLink then return choice
    let candidateClock := t.captureClock s.terminalLink
    if playback.clockSourceId ≠ 0 ∧ candidateClock ≠ 0 ∧ candidateClock ≠ playback.clockSourceId then return choice
    if s.channels = 0 ∨ s.bits ≠ playback.bitsPerSample ∨ s.bytes ≠ playback.bytesPerSample then return choice
    return alt.endpoint.foldl (playback.chooseEndpoint alt s.channels candidateClock) choice

/-- The playback format with the fields of the choice. -/
def CaptureChoice.streamFormat (choice : CaptureChoice) (playback : StreamFormat) : StreamFormat :=
  { playback with
    channels := choice.channels
    interfaceNumber := choice.chosen.bInterfaceNumber.toNat
    altSetting := choice.chosen.bAlternateSetting.toNat
    endpointAddress := choice.chosenEp.bEndpointAddress.toNat
    maxPacketSize := choice.chosenEp.wMaxPacketSize.toNat
    clockSourceId := choice.clock
    bInterval := choice.chosenEp.bInterval.toNat
    feedbackEndpointAddress := 0
    implicitFeedback := choice.implicitFeedback }

def selectCaptureAltSetting? (config : Option ConfigDescriptor) (playback : StreamFormat) :
    Option (Option StreamFormat) :=
  match config with
  | none => some none
  | some c => do
    let t ← c.captureTopology? playback
    let choice ← c.altsettings.foldlM (t.chooseCapture? playback) none
    return choice.map fun choice => choice.streamFormat playback

theorem ConfigDescriptor.captureTopology?_isSome (c : ConfigDescriptor) (playback : StreamFormat) :
    (c.captureTopology? playback).isSome := by
  unfold captureTopology?
  split
  · refine foldlM_isSome (fun t alt _ => ?_) _
    rw [walkExtra?_eq, Option.bind_eq_bind, Option.bind_some]
    exact foldlM_isSome (fun t d _ => by rw [t.entity?_eq]; rfl) t
  · rfl

theorem CaptureScan.descriptor?_isSome (uacVersion : Nat) (s : CaptureScan) (d : Descriptor) :
    (s.descriptor? uacVersion d).isSome := by
  have hgeneral : (s.general? uacVersion d).isSome := by
    unfold general?
    rw [Descriptor.isClassDescriptor?_eq, Option.bind_eq_bind, Option.bind_some]
    refine guarded_isSome (fun h => ?_) rfl
    dsimp only
    split
    · rw [Descriptor.read?_of_lt (by omega), Descriptor.read?_of_lt (by omega)]
      rfl
    · rw [Descriptor.read?_of_lt (by omega)]
      rfl
  have hformat (s : CaptureScan) : (s.format? uacVersion d).isSome := by
    unfold format?
    rw [Descriptor.isOffer?_eq, Option.bind_eq_bind, Option.bind_some]
    split
    · rename_i h
      have := Descriptor.six_le_of_isOffer h
      split
      · rw [Descriptor.read?_of_lt (by omega), Descriptor.read?_of_lt (by omega)]
        rfl
      split
      · rw [Descriptor.read?_of_lt (by omega), Descriptor.read?_of_lt (by omega), Descriptor.read?_of_lt (by omega)]
        rfl
      · rfl
    · rfl
  exact bind_isSome hgeneral hformat

theorem Topology.chooseCapture?_isSome (t : Topology) (playback : StreamFormat) (choice : Option CaptureChoice)
    (alt : InterfaceDescriptor) : (t.chooseCapture? playback choice alt).isSome := by
  unfold chooseCapture?
  split
  · rfl
  · rw [walkExtra?_eq, Option.bind_eq_bind, Option.bind_some]
    refine bind_isSome (foldlM_isSome (fun s d _ => CaptureScan.descriptor?_isSome playback.uacVersion s d) _) fun s => ?_
    dsimp only
    split_ifs <;> rfl

theorem selectCaptureAltSetting?_isSome (config : Option ConfigDescriptor) (playback : StreamFormat) :
    (selectCaptureAltSetting? config playback).isSome := by
  unfold selectCaptureAltSetting?
  cases config with
  | none => rfl
  | some c =>
    refine bind_isSome (c.captureTopology?_isSome playback) fun t => ?_
    exact bind_isSome (foldlM_isSome (fun choice alt _ => t.chooseCapture?_isSome playback choice alt) none) fun _ => rfl

/-! ### Every read -/

/-- Each walk over the class-specific bytes ends of itself, with descriptors inside the blob, and all that is read of
the descriptors and of the replies has a value. -/
structure ConfigDescriptor.ReadsInside (c : ConfigDescriptor) (getRange : Nat → Nat → List UInt8) : Prop where
  terminates : ∀ alt ∈ c.altsettings, ∀ fuel, alt.extra.length ≤ fuel →
    walkExtraFrom fuel alt.extra = walkExtra alt.extra
  walk : ∀ alt ∈ c.altsettings, walkExtra? alt.extra = some (walkExtra alt.extra)
  inside : ∀ alt ∈ c.altsettings, ∀ d ∈ walkExtra alt.extra,
    d.len = d.byte 0 ∧ d.len ≤ d.p.length ∧ d.p <:+ alt.extra
  formats : (c.enumerateFormats? getRange).isSome
  channels : ∀ device line6Profile, (captureChannelCount? device line6Profile (some c)).isSome
  playback : ∀ isHs req, (selectAltSetting? (some c) isHs req).isSome
  capture : ∀ playback, (selectCaptureAltSetting? (some c) playback).isSome
  replies : ∀ supportedRates clockId rng, (inventory? supportedRates clockId rng).isSome

/-- Only the kept format pointer of `enumerateFormats` is ever followed past the end of a descriptor. -/
theorem ConfigDescriptor.readsInside_iff (c : ConfigDescriptor) (getRange : Nat → Nat → List UInt8) :
    c.ReadsInside getRange ↔ c.FormatsLong := by
  constructor
  · intro h
    by_contra hshort
    have hformats := h.formats
    rw [enumerateFormats?_none hshort] at hformats
    exact absurd hformats (by decide)
  · intro hlong
    exact
      { terminates := fun alt _ fuel hfuel => walkExtraFrom_eq fuel alt.extra hfuel
        walk := fun alt _ => walkExtra?_eq alt.extra
        inside := fun alt _ d hd => by
          obtain ⟨-, hlen, hbyte, hsuffix⟩ := walkExtra_inside hd
          exact ⟨hbyte, hlen, hsuffix⟩
        formats := by
          rw [enumerateFormats?_eq hlong]
          rfl
        channels := fun device line6Profile => captureChannelCount?_isSome device line6Profile (some c)
        playback := fun isHs req => by
          rw [selectAltSetting?_eq]
          rfl
        capture := fun playback => selectCaptureAltSetting?_isSome (some c) playback
        replies := inventory?_isSome }

/-- A UAC1 device with 44.1 kHz stereo, whose `FORMAT_TYPE` is followed by one cut off before `bSamFreqType`. -/
def truncatedFormat : ConfigDescriptor :=
  ⟨[[⟨0, 0, 1, 1, [], [9, 0x24, 1, 0x00, 0x01, 0, 0, 1, 1]⟩],
    [⟨1, 0, 1, 2, [], []⟩,
      ⟨1, 1, 1, 2, [⟨0x01, 0x09, 192, 1, 0⟩],
        [11, 0x24, 2, 1, 2, 2, 16, 1, 0x44, 0xAC, 0x00, 7, 0x24, 2, 1, 2, 2, 16]⟩]]⟩

theorem truncatedFormat_reads_outside : ¬ truncatedFormat.ReadsInside fun _ _ => [] := by
  intro h
  have hformats : truncatedFormat.enumerateFormats? (fun _ _ => []) = none := by decide
  have := h.formats
  rw [hformats] at this
  exact absurd this (by decide)

end UacDriver

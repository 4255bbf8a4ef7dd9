import UacDriver.PackLayout

/-!
# Reading whole blocks from the capture ring

A capture read trims the unread bytes to the newest window and then takes whole frames from its front. `readWindow` is
that window; what `prepareCaptureRead` hands out is a prefix of it, however the bytes lie in the ring.
`readInputChannels` decodes a block of the window or nothing: the value of a sample is `subslotSample`, the
two's-complement integer in the high bytes of the channel's subslot.
-/

namespace UacDriver

open Circular Cursor

/-! ### The window of a read -/

namespace Capture

variable {w : Nat} {c : Capture w}

/-- The unread bytes that a read keeps: the newest `limit` frames. -/
def readWindow (c : Capture w) (limit : Nat) : List UInt8 := c.ring.contents.drop (c.ring.used - limit * c.stride)

theorem readWindow_length (limit : Nat) : (c.readWindow limit).length = min c.ring.used (limit * c.stride) := by
  rw [readWindow, List.length_drop, Ring.contents_length]
  omega

/-- The cursor of a read stands at the front of the window. -/
theorem readCursor_eq (limit : Nat) (hused : c.ring.used ≤ c.ring.size.bytes) :
    c.readCursor limit = c.ring.tail + BitVec.ofNat w (c.ring.used - limit * c.stride) ∧
      dist c.ring.head (c.readCursor limit) = min c.ring.used (limit * c.stride) := by
  unfold readCursor
  split
  · rename_i hlt
    have hword : limit * c.stride < 2 ^ w := by
      have := c.ring.size.lt
      omega
    rw [Cursor.dist_sub_right _ hword]
    refine ⟨?_, by omega⟩
    -- the head is `used` ahead of the tail
    have hhead : c.ring.head = c.ring.tail + BitVec.ofNat w c.ring.used := by
      conv_lhs => rw [eq_ofNat_add_dist c.ring.head c.ring.tail]
      rw [BitVec.ofNat_add, BitVec.ofNat_toNat, BitVec.setWidth_eq]
      rfl
    have hsplit : c.ring.used = c.ring.used - limit * c.stride + limit * c.stride := by omega
    conv_lhs => rw [hhead, hsplit, BitVec.ofNat_add, ← BitVec.add_assoc, BitVec.add_sub_cancel]
  · rename_i hge
    have hzero : c.ring.used - limit * c.stride = 0 := by omega
    refine ⟨by simp [hzero], ?_⟩
    show c.ring.used = _
    omega

/-- What a read is given: as many whole frames of the window as were asked for, from its front. -/
theorem prepareCaptureRead_window (c : Capture w) (limit : Nat) {n : Nat} (hactive : c.captureActive = true)
    (hn : 0 < n) (hstride : 0 < c.stride) (hused : c.ring.used ≤ c.ring.size.bytes) :
    let region := (c.prepareCaptureRead limit n).2
    (c.prepareCaptureRead limit n).1.ring = c.ring ∧
      region.frames = min ((c.readWindow limit).length / c.stride) n ∧ region.frameStride = c.stride ∧
      region.firstBytes + region.secondBytes = region.frames * c.stride ∧
      c.regionBytes region = (c.readWindow limit).take (region.frames * c.stride) := by
  intro region
  have hargs : ¬((!c.captureActive) = true ∨ (n : Int) ≤ 0 ∨ c.stride = 0) := by
    simp only [hactive, Bool.not_true, Bool.false_eq_true, false_or]
    omega
  obtain ⟨hcursor, hdist⟩ := readCursor_eq (c := c) limit hused
  have hlen := readWindow_length (c := c) limit
  generalize hframes : min ((c.readWindow limit).length / c.stride) n = frames
  have hregion : region = {
      first := c.ring.offset (c.readCursor limit)
      firstBytes := min (frames * c.stride) (c.ring.size.bytes - c.ring.offset (c.readCursor limit))
      secondBytes := frames * c.stride -
        min (frames * c.stride) (c.ring.size.bytes - c.ring.offset (c.readCursor limit))
      consumerCursor := c.readCursor limit, frames, frameStride := c.stride } := by
    simp only [region, prepareCaptureRead, hargs, if_false, Int.toNat_natCast, hdist, ← hlen, hframes]
  have hle : frames * c.stride ≤ (c.readWindow limit).length := by
    rw [← hframes]
    exact (Nat.mul_le_mul_right _ (Nat.min_le_left ..)).trans (Nat.div_mul_le_self ..)
  refine ⟨?_, by rw [hregion], by rw [hregion], ?_, ?_⟩
  · unfold prepareCaptureRead
    split <;> rfl
  · rw [hregion]
    dsimp only
    omega
  · rw [hregion]
    show c.ring.readAt (c.readCursor limit) (frames * c.stride) = (c.readWindow limit).take (frames * c.stride)
    rw [c.ring.readAt_eq_window (by omega)]
    rw [hlen] at hle
    rw [readWindow, Ring.contents, take_drop_window _ (by omega), hcursor]
    exact window_congr_pos (toNat_add_mod c.ring.size.dvd_word _ _) _

/-- A read that is given all it asked for counts no underrun. -/
theorem prepareCaptureRead_underruns {limit n : Nat} (h : n ≤ (c.prepareCaptureRead limit n).2.frames) :
    (c.prepareCaptureRead limit n).1.captureUnderruns = c.captureUnderruns := by
  unfold prepareCaptureRead at h ⊢
  split
  · rfl
  · rename_i hargs
    rw [if_neg hargs] at h
    exact if_neg (Nat.not_lt.2 h)

end Capture

/-! ### The samples of a block -/

/-- The value of little-endian bytes. -/
def leValue : List UInt8 → Nat
  | [] => 0
  | b :: bs => b.toNat + 256 * leValue bs

theorem leValue_lt (bs : List UInt8) : leValue bs < 256 ^ bs.length := by
  induction bs with
  | nil => simp [leValue]
  | cons b bs ih =>
    have hb := b.toNat_lt
    rw [leValue, List.length_cons, Nat.pow_succ]
    omega

theorem leValue_byte {bs : List UInt8} {k : Nat} (hk : k < bs.length) :
    UInt8.ofNat (leValue bs / 256 ^ k) = bs.getD k 0 := by
  induction bs generalizing k with
  | nil => cases hk
  | cons b bs ih =>
    have hb := b.toNat_lt
    cases k with
    | zero =>
      refine UInt8.toNat_inj.1 ?_
      rw [leValue, Nat.pow_zero, Nat.div_one, UInt8.toNat_ofNat', Nat.add_mul_mod_self_left, Nat.mod_eq_of_lt hb]
      rfl
    | succ k =>
      have hdiv : (b.toNat + 256 * leValue bs) / 256 = leValue bs := by omega
      rw [leValue, Nat.pow_succ', ← Nat.div_div_eq_div_mul, hdiv, ih (by simpa using hk)]
      rfl

/-- The sample in a subslot: the two's-complement value of its high bytes. -/
def subslotSample (bits bytes : Nat) (subslot : List UInt8) : Int :=
  (BitVec.ofNat bits (leValue (subslot.drop (bytes - validBytes bits)))).toInt

/-- The subslot of channel `ch` in frame `f` of a block. -/
def subslotAt (stride bytes : Nat) (block : List UInt8) (f ch : Nat) : List UInt8 :=
  (block.drop (f * stride + ch * bytes)).take bytes

namespace DirectUsbOutput

variable {w : Nat} {o : DirectUsbOutput}

/-- The decoder reads the value of the valid bytes. -/
theorem unpackPcm_eq {bits : Nat} (hbits : bits = 16 ∨ bits = 24 ∨ bits = 32) {bs : List UInt8}
    (hlen : bs.length = validBytes bits) {input : Nat → UInt8} (hinput : ∀ k < validBytes bits, input k = bs.getD k 0) :
    unpackPcm bits input = (BitVec.ofNat bits (leValue bs)).toInt := by
  have hwidth : 8 * validBytes bits = bits := by rcases hbits with rfl | rfl | rfl <;> rfl
  have hmax : validBytes bits ≤ 4 := by rcases hbits with rfl | rfl | rfl <;> decide
  have hvalue : leValue bs < 2 ^ bits := by
    have := leValue_lt bs
    rw [hlen, show 256 = 2 ^ 8 from rfl, ← Nat.pow_mul, hwidth] at this
    exact this
  refine unpackPcm_packPcm hbits le_rfl hmax _ fun k hk => ?_
  rw [packPcm_eq_justified hbits le_rfl hmax, Nat.sub_self, Nat.zero_add, List.getElem?_map, List.getElem?_range hk,
    Option.map_some, hinput k hk, ← leValue_byte (by omega), justifiedByte, hwidth, Nat.sub_self, Nat.pow_zero, Nat.mul_one,
    BitVec.toNat_ofNat, Nat.mod_eq_of_lt hvalue, show 256 = 2 ^ 8 from rfl, ← Nat.pow_mul]

/-- A run over a block decodes the subslots of the channel, one a frame. -/
theorem unpackCaptureRun_eq {bits bytes stride ch n : Nat} (hbits : bits = 16 ∨ bits = 24 ∨ bits = 32)
    (hvalid : validBytes bits ≤ bytes) (hch : (ch + 1) * bytes ≤ stride) {block : List UInt8}
    (hblock : n * stride ≤ block.length) :
    unpackCaptureRun bits (fun i => block.getD i 0) 0 n stride (ch * bytes + (bytes - validBytes bits)) =
      (List.range n).map fun f => subslotSample bits bytes (subslotAt stride bytes block f ch) := by
  refine List.map_congr_left fun f hf => ?_
  have hroom : f * stride + ch * bytes + bytes ≤ block.length := by
    have : (f + 1) * stride ≤ n * stride := Nat.mul_le_mul_right _ (List.mem_range.1 hf)
    rw [Nat.succ_mul] at this hch
    omega
  have hslot : (subslotAt stride bytes block f ch).length = bytes := by
    rw [subslotAt, List.length_take, List.length_drop]
    omega
  refine unpackPcm_eq hbits (by rw [List.length_drop, hslot]; omega) fun k hk => ?_
  have hin : bytes - validBytes bits + k < bytes := by omega
  dsimp only
  rw [List.getD_eq_getElem?_getD, List.getD_eq_getElem?_getD, List.getElem?_drop, subslotAt, List.getElem?_take_of_lt hin,
    List.getElem?_drop]
  congr 2
  omega

/-- What the format checks of a start say about the capture format. -/
structure CaptureAccepted (f : StreamFormat) : Prop where
  bits : f.bitsPerSample = 16 ∨ f.bitsPerSample = 24 ∨ f.bitsPerSample = 32
  bytes : validBytes f.bitsPerSample ≤ f.bytesPerSample
  channels : 0 < f.channels

theorem captureAccepted_of_start {sampleRate bitsPerSample bytesPerSample channels outputPair : Int}
    {playback capture : StreamFormat}
    (h : start sampleRate bitsPerSample bytesPerSample channels outputPair playback capture = some o) :
    CaptureAccepted capture := by
  unfold start at h
  split at h
  · cases h
  split at h
  · cases h
  rename_i hformats
  simp only [not_or, not_and, not_lt, Decidable.not_not] at hformats
  obtain ⟨-, -, hchannels, -, hbits, hbytes, -⟩ := hformats
  refine ⟨?_, by omega, by omega⟩
  by_cases h16 : capture.bitsPerSample = 16
  · exact .inl h16
  by_cases h24 : capture.bitsPerSample = 24
  · exact .inr (.inl h24)
  exact .inr (.inr (hbits h16 h24))

theorem CaptureAccepted.stride_pos {f : StreamFormat} (h : CaptureAccepted f) : 0 < f.frameStride := by
  have hpos : 0 < validBytes f.bitsPerSample := by
    rcases h.bits with h | h | h <;> rw [h] <;> decide
  have := h.bytes
  exact Nat.mul_pos h.channels (by omega)

/-- The plane of channel `ch` in a block of `n` frames. -/
def blockPlane (f : StreamFormat) (block : List UInt8) (n ch : Nat) : List Int :=
  if ch < f.channels then
    (List.range n).map fun frame =>
      subslotSample f.bitsPerSample f.bytesPerSample (subslotAt f.frameStride f.bytesPerSample block frame ch)
  else List.replicate n 0

/-- A region of `n` frames decodes to the planes of the block it holds. -/
theorem unpackCaptureChannel_block {c : Capture w} (h : CaptureAccepted c.format) {region : CaptureReadRegion w}
    (hpos : 0 < region.frames) (hstride : region.frameStride = c.stride)
    (hsize : region.firstBytes + region.secondBytes = region.frames * c.stride) {block : List UInt8}
    (hbytes : c.regionBytes region = block.take (region.frames * c.stride)) (hblock : region.frames * c.stride ≤ block.length)
    {ch : Nat} (hch : ch < c.format.channels) :
    unpackCaptureChannelForBits c.format.bitsPerSample c.ring.data region
        (ch * c.format.bytesPerSample + (c.format.bytesPerSample - validBytes c.format.bitsPerSample)) region.frames =
      some (blockPlane c.format block region.frames ch) := by
  have hvalid := h.bytes
  have hroom : (ch + 1) * c.format.bytesPerSample ≤ c.stride := Nat.mul_le_mul_right _ hch
  have hbelow : ∀ i < region.frames * c.stride, block.getD i 0 = (c.regionBytes region).getD i 0 := by
    intro i hi
    rw [hbytes, List.getD_eq_getElem?_getD, List.getD_eq_getElem?_getD, List.getElem?_take_of_lt hi]
  have hfirst : ∀ i < region.firstBytes, block.getD i 0 = c.ring.data (region.first + i) := by
    intro i hi
    rw [hbelow i (by omega), List.getD_eq_getElem?_getD, Capture.regionBytes,
      List.getElem?_append_left (by simpa using hi), getElem?_copyOut hi, Option.getD_some]
  have hsecond : ∀ i < region.secondBytes, block.getD (region.firstBytes + i) 0 = c.ring.data i := by
    intro i hi
    rw [hbelow _ (by omega), List.getD_eq_getElem?_getD, Capture.regionBytes,
      List.getElem?_append_right (by simp), copyOut_length, Nat.add_sub_cancel_left, getElem?_copyOut hi,
      Option.getD_some, Nat.zero_add]
  have hoffset : ch * c.format.bytesPerSample + (c.format.bytesPerSample - validBytes c.format.bitsPerSample) +
      validBytes c.format.bitsPerSample ≤ region.frameStride := by
    rw [Nat.succ_mul] at hroom
    omega
  rw [unpackCaptureChannelForBits, if_pos h.bits, unpackCaptureChannel_eq h.bits hpos hoffset (by rw [hstride]; exact hsize)
    hfirst hsecond, hstride, unpackCaptureRun_eq h.bits hvalid hroom hblock, blockPlane, if_pos hch]
  rfl

/-- A region short of the block is released unread. -/
theorem readInputChannels_eq_none {c : Capture w} {limit n : Nat} {destinationChannels frames : Int}
    (hn : n = (min frames kMaxFramesPerWrite).toNat) (hshort : (c.prepareCaptureRead limit n).2.frames < n) :
    (readInputChannels c limit destinationChannels frames).2 = none := by
  rw [readInputChannels, ← hn]
  split
  · rfl
  · have hnone : min (c.prepareCaptureRead limit n).2.frames n < n ∨
        min destinationChannels.toNat c.format.channels = 0 := .inl (by omega)
    simp only [if_pos hnone]

/-- A region that holds the block is decoded, plane by plane. -/
theorem readInputChannels_eq_planes {c : Capture w} {limit n : Nat} {destinationChannels frames : Int}
    (hn : n = (min frames kMaxFramesPerWrite).toNat) (hdestinations : 0 < destinationChannels) (hframes : 0 < frames)
    (hchannels : 0 < c.format.channels) (hall : (c.prepareCaptureRead limit n).2.frames = n) {plane : Nat → List Int}
    (hdecoded : ∀ ch < c.format.channels,
      unpackCaptureChannelForBits c.format.bitsPerSample (c.prepareCaptureRead limit n).1.ring.data
        (c.prepareCaptureRead limit n).2
        (ch * c.format.bytesPerSample + (c.format.bytesPerSample - validBytes c.format.bitsPerSample)) n =
      some (plane ch))
    (hsilent : ∀ ch, c.format.channels ≤ ch → plane ch = List.replicate n 0) :
    (readInputChannels c limit destinationChannels frames).2 =
      some ((List.range destinationChannels.toNat).map fun ch => some (plane ch)) := by
  have hargs : ¬(destinationChannels ≤ 0 ∨ frames ≤ 0) := by omega
  have hfull : ¬(min n n < n ∨ min destinationChannels.toNat c.format.channels = 0) := by omega
  rw [readInputChannels, if_neg hargs, ← hn]
  simp only [hall, if_neg hfull]
  congr 1
  -- the planes of the format first, then the silent ones
  obtain ⟨r, hr⟩ : ∃ r, destinationChannels.toNat = min destinationChannels.toNat c.format.channels + r :=
    Nat.exists_eq_add_of_le (Nat.min_le_left ..)
  have hleft : destinationChannels.toNat - min destinationChannels.toNat c.format.channels = r := by omega
  rw [hleft, Nat.min_self]
  conv_rhs => rw [hr]
  rw [List.range_add, List.map_append, List.map_map]
  congr 1
  · refine List.map_congr_left fun ch hch => ?_
    have := List.mem_range.1 hch
    exact hdecoded ch (by omega)
  · refine (List.eq_replicate_iff.2 ⟨by simp, fun p hp => ?_⟩).symm
    obtain ⟨i, hi, rfl⟩ := List.mem_map.1 hp
    have := List.mem_range.1 hi
    rw [Function.comp_apply, hsilent _ (by omega)]

/-- `readInputChannels` delivers a whole block or nothing. For every capture format that a start admits, every ring and
every request it writes planes only if capture is active and the read window holds the block, and then all of them:
the decoded subslots of the oldest frames of the window, and silence on the channels that the format does not have. -/
theorem readInputChannels_whole {sampleRate bitsPerSample bytesPerSample channels outputPair : Int}
    {playback capture : StreamFormat}
    (hstart : start sampleRate bitsPerSample bytesPerSample channels outputPair playback capture = some o)
    {c : Capture w} (hused : c.ring.used ≤ c.ring.size.bytes) (hformat : c.format = capture) (limit : Nat)
    (destinationChannels frames : Int) :
    let n := (min frames kMaxFramesPerWrite).toNat
    let window := c.readWindow limit
    (readInputChannels c limit destinationChannels frames).2 =
      if 0 < destinationChannels ∧ 0 < frames ∧ c.captureActive = true ∧ n * c.stride ≤ window.length then
        some ((List.range destinationChannels.toNat).map fun ch => some (blockPlane capture window n ch))
      else none := by
  intro n window
  have haccepted : CaptureAccepted c.format := hformat ▸ captureAccepted_of_start hstart
  have hstride : 0 < c.stride := haccepted.stride_pos
  split
  · rename_i h
    obtain ⟨hdestinations, hpos, hactive, hwhole⟩ := h
    have hn : 0 < n := by
      have : (0 : Int) < kMaxFramesPerWrite := by decide
      omega
    obtain ⟨hring, hframes, hfs, hsize, hbytes⟩ := c.prepareCaptureRead_window limit hactive hn hstride hused
    have hall : (c.prepareCaptureRead limit n).2.frames = n := by
      rw [hframes, Nat.min_eq_right ((Nat.le_div_iff_mul_le hstride).2 hwhole)]
    refine readInputChannels_eq_planes rfl hdestinations hpos haccepted.channels hall ?_ ?_
    · intro ch hch
      have hblock := unpackCaptureChannel_block haccepted (by rw [hall]; exact hn) hfs hsize hbytes
        (by rw [hall]; exact hwhole) hch
      rw [hall] at hblock
      rw [hring, hblock, hformat]
    · intro ch hch
      rw [blockPlane, if_neg (by rw [← hformat]; omega)]
  · rename_i h
    by_cases hargs : destinationChannels ≤ 0 ∨ frames ≤ 0
    · rw [readInputChannels, if_pos hargs]
    have hn : 0 < n := by
      have : (0 : Int) < kMaxFramesPerWrite := by decide
      omega
    refine readInputChannels_eq_none (n := n) rfl ?_
    by_cases hactive : c.captureActive = true
    · obtain ⟨-, hframes, -⟩ := c.prepareCaptureRead_window limit hactive hn hstride hused
      have hshort : ¬n ≤ window.length / c.stride := by
        intro hle
        exact h ⟨by omega, by omega, hactive, (Nat.le_div_iff_mul_le hstride).1 hle⟩
      rw [hframes]
      show min (window.length / c.stride) n < n
      omega
    · -- without capture the region is empty
      rw [Capture.prepareCaptureRead, if_pos (.inl (by simpa using hactive))]
      exact hn

/-- Two frames of a ring that holds three, the first of them split by the end of the ring, into three planes. -/
theorem readInputChannels_whole_split :
    ∃ c : Capture 64,
      c.ring.used = 18 ∧ (c.prepareCaptureRead 2 2).2.firstBytes = 2 ∧ (c.prepareCaptureRead 2 2).2.secondBytes = 10 ∧
      (readInputChannels c 2 3 2).2 =
        some [some [0x7C7B7A, 0x828180 - 0x1000000], some [0x7F7E7D, 0x858483 - 0x1000000], some [0, 0]] := by
  let f : StreamFormat := { sampleRateHz := 48000, bitsPerSample := 24, bytesPerSample := 3, channels := 2 }
  let c : Capture 64 :=
    { ring := { size := .smallest, data := fun i => UInt8.ofNat (i + 124), head := 4106, tail := 4088 }
      format := f, captureActive := true }
  have hstart : start 48000 24 3 2 0 f f = some { formatBits := 24, formatBytes := 3, deviceChannels := 2, outputPair := 0 } := by
    rw [start, if_neg (by decide), if_neg (by decide)]
    rfl
  have hwhole := readInputChannels_whole hstart (c := c) (by decide) rfl 2 3 2
  refine ⟨c, by decide, by decide, by decide, hwhole.trans ?_⟩
  rw [if_pos (by decide)]
  decide

end DirectUsbOutput

end UacDriver

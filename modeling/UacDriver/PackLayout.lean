import UacDriver.PcmRoundTrip
import UacDriver.Descriptors

/-!
# The layout of a packed block

What a block must look like on the wire is `layout`, written without regard to the ring: the frames in order, in each
frame one subslot a channel, the samples of the pair left justified in theirs and all other bytes zero.
`packPlaybackRegion` packs the first span, a frame that straddles the end of the ring and the second span by three
different copies; together they leave this layout in the region and touch nothing else.
-/

namespace UacDriver

open Circular

/-- The two spans of a region read back as what was stored into them. -/
theorem PlaybackWriteRegion.Fits.spans {w : Nat} {region : PlaybackWriteRegion w} {p : Playback w} (hfits : region.Fits p)
    {data : List UInt8} (hlen : data.length = region.firstBytes + region.secondBytes) (mem : Nat → UInt8) :
    let mem' := blit (blit mem region.first (data.take region.firstBytes)) 0 (data.drop region.firstBytes)
    copyOut mem' region.first region.firstBytes ++ copyOut mem' 0 region.secondBytes = data := by
  intro mem'
  -- the second span ends before the first begins
  have hapart : region.secondBytes ≤ region.first ∨ region.secondBytes = 0 := by
    have hfit := hfits.fit
    have hfirst := hfits.firstBytes
    have hsecond := hfits.secondBytes
    rw [hfits.first]
    omega
  have htake : (data.take region.firstBytes).length = region.firstBytes := List.length_take_of_le (by omega)
  have hdrop : (data.drop region.firstBytes).length = region.secondBytes := by
    rw [List.length_drop]
    omega
  have hfirst := copyOut_blit_self mem region.first (data.take region.firstBytes)
  have hsecond := copyOut_blit_self (blit mem region.first (data.take region.firstBytes)) 0 (data.drop region.firstBytes)
  rw [htake] at hfirst
  rw [hdrop] at hsecond
  rw [copyOut_blit_disjoint (by rw [hdrop]; omega), hfirst, hsecond, List.take_append_drop]

namespace DirectUsbOutput

variable {α : Type} {w : Nat} {o : DirectUsbOutput} {quantise : (bits : Nat) → α → BitVec bits}

/-- Byte `k` of the two's-complement sample `v`, left justified in a little-endian subslot of `bytes` bytes. -/
def justifiedByte (bits bytes : Nat) (v : BitVec bits) (k : Nat) : UInt8 :=
  UInt8.ofNat (v.toNat * 2 ^ (8 * bytes - bits) / 2 ^ (8 * k))

/-- Byte `k` of channel `ch` in frame `f`. -/
def layoutByte (o : DirectUsbOutput) (quantise : (bits : Nat) → α → BitVec bits) (left right : Nat → α) (f ch k : Nat) :
    UInt8 :=
  if ch = 2 * o.outputPair then justifiedByte o.formatBits o.formatBytes (quantise o.formatBits (left f)) k
  else if ch = 2 * o.outputPair + 1 then justifiedByte o.formatBits o.formatBytes (quantise o.formatBits (right f)) k
  else 0

/-- The reference layout of `n` frames. -/
def layout (o : DirectUsbOutput) (quantise : (bits : Nat) → α → BitVec bits) (left right : Nat → α) (n : Nat) :
    List UInt8 :=
  (List.range n).flatMap fun f => (List.range o.deviceChannels).flatMap fun ch =>
    (List.range o.formatBytes).map (o.layoutByte quantise left right f ch)

/-- The bytes of a subslot lie below the sign extension, so only the sample itself is stored. -/
theorem byteAt_signExtend {bits bytes k : Nat} (hbits : bits = 16 ∨ bits = 24 ∨ bits = 32)
    (hvalid : validBytes bits ≤ bytes) (hbytes : bytes ≤ 4) (hk : k < bytes) (v : BitVec bits) :
    byteAt (v.signExtend 32 <<< (8 * (bytes - validBytes bits))) k = justifiedByte bits bytes v k := by
  have hwidth : 8 * bytes - bits = 8 * (bytes - validBytes bits) ∧ bits + 8 * (bytes - validBytes bits) = 8 * bytes := by
    have : 8 * validBytes bits = bits := by rcases hbits with rfl | rfl | rfl <;> rfl
    omega
  obtain ⟨hpad, hsum⟩ := hwidth
  rw [justifiedByte, hpad]
  generalize 8 * (bytes - validBytes bits) = pad at hsum
  refine UInt8.toBitVec_inj.1 (BitVec.eq_of_getLsbD_eq fun i hi => ?_)
  have hlt : 8 * k + i < 32 := by omega
  show (((v.signExtend 32 <<< pad) >>> (8 * k)).setWidth 8).getLsbD i = (BitVec.ofNat 8 _).getLsbD i
  rw [BitVec.getLsbD_setWidth, BitVec.getLsbD_ushiftRight, BitVec.getLsbD_shiftLeft, BitVec.getLsbD_signExtend,
    BitVec.getLsbD_ofNat, Nat.testBit_div_two_pow, Nat.testBit_mul_two_pow, Nat.add_comm i]
  by_cases hlow : 8 * k + i < pad
  · have : ¬pad ≤ 8 * k + i := by omega
    simp [hlow, this]
  · have h₁ : pad ≤ 8 * k + i := by omega
    have h₂ : 8 * k + i - pad < bits := by omega
    have h₃ : 8 * k + i - pad < 32 := by omega
    simp [hi, hlt, hlow, h₁, h₂, h₃, BitVec.testBit_toNat]

theorem packPcm_eq_justified {bits bytes : Nat} (hbits : bits = 16 ∨ bits = 24 ∨ bits = 32)
    (hvalid : validBytes bits ≤ bytes) (hbytes : bytes ≤ 4) (v : BitVec bits) :
    packPcm bits bytes v = (List.range bytes).map (justifiedByte bits bytes v) := by
  rw [packPcm_eq_map]
  exact List.map_congr_left fun k hk => byteAt_signExtend hbits hvalid hbytes (List.mem_range.1 hk) v

/-- The encoder writes the reference layout. -/
theorem encode_eq_layout (ho : o.Accepted) (left right : Nat → α) (n : Nat) :
    o.encode quantise left right n = o.layout quantise left right n := by
  unfold encode layout
  congr 1
  funext f
  rw [frameBytes_eq ho.pair]
  congr 1
  funext ch
  rw [packPcm_eq_justified ho.bits ho.bytes.1 ho.bytes.2]
  refine List.map_congr_left fun k _ => ?_
  unfold layoutByte channelValue
  rw [Nat.mul_comm]
  split
  · rfl
  split
  · rfl
  · simp [justifiedByte]

/-- What `start` has checked and `startDuplex` negotiated: an accepted format whose frames are the driver's. -/
theorem frameStride_of_start {sampleRate bitsPerSample bytesPerSample channels outputPair : Int}
    {playback capture : StreamFormat}
    (h : start sampleRate bitsPerSample bytesPerSample channels outputPair playback capture = some o)
    (hneg : NegotiatesPlayback ⟨sampleRate, bitsPerSample, channels, bytesPerSample⟩ playback) :
    o.Accepted ∧ playback.frameStride = o.deviceChannels * o.formatBytes := by
  obtain ⟨ho, hdevice, -, hformatBytes, -⟩ := accepted_of_start h
  have hpos : 0 < validBytes o.formatBits := by
    rcases ho.bits with h | h | h <;> rw [h] <;> decide
  have hvalid := ho.bytes.1
  have hsubslot := hneg.bytesPerSample (show (0 : Int) < bytesPerSample by omega)
  refine ⟨ho, ?_⟩
  rw [StreamFormat.frameStride, hdevice]
  congr 1
  have : (playback.bytesPerSample : Int) = bytesPerSample := hsubslot
  omega

/-- Packing in two spans is packing in a row. For every region that `preparePlaybackWrite` grants and every format that
a start has validated, the packer leaves the reference layout in the first span followed by the second, touches no
other byte, and stores a 4-byte subslot as the byte loop would. -/
theorem packed_region_layout {sampleRate bitsPerSample bytesPerSample channels outputPair : Int}
    {playback capture : StreamFormat}
    (hstart : start sampleRate bitsPerSample bytesPerSample channels outputPair playback capture = some o)
    (hneg : NegotiatesPlayback ⟨sampleRate, bitsPerSample, channels, bytesPerSample⟩ playback)
    {p : Playback w} (hused : p.ring.used ≤ p.ring.size.bytes) (hformat : p.format = playback) {frames : Int}
    (hgranted : 0 < (p.preparePlaybackWrite frames).2.frames) (mem : Nat → UInt8) (left right : Nat → α) :
    let region := (p.preparePlaybackWrite frames).2
    ∃ mem', o.packPlaybackRegionForFormat quantise mem region left right = some mem' ∧
      copyOut mem' region.first region.firstBytes ++ copyOut mem' 0 region.secondBytes =
        o.layout quantise left right region.frames ∧
      (∀ i, ¬(region.first ≤ i ∧ i < region.first + region.firstBytes) → ¬i < region.secondBytes → mem' i = mem i) ∧
      ∀ v : BitVec o.formatBits, packPcm o.formatBits 4 v =
        (List.range 4).map (byteAt (v.signExtend 32 <<< (8 * (4 - validBytes o.formatBits)))) := by
  intro region
  obtain ⟨ho, hframe⟩ := frameStride_of_start hstart hneg
  have hstride : p.stride = o.deviceChannels * o.formatBytes := by rw [Playback.stride, hformat, hframe]
  have hfits : region.Fits p := by
    rcases Playback.preparePlaybackWrite_region hused frames with hempty | ⟨hfits, -⟩
    · rw [hempty] at hgranted
      exact absurd hgranted (Nat.lt_irrefl 0)
    · exact hfits
  have hsize := hfits.bytes_eq
  have hlen : (o.encode quantise left right region.frames).length = region.firstBytes + region.secondBytes := by
    rw [encode_length ho.pair, ← hstride, ← hfits.stride, hsize]
  refine ⟨_, packForFormat_eq ho hfits hstride mem left right, ?_, ?_, packPcm_eq_map _ 4⟩
  · rw [hfits.spans hlen, encode_eq_layout ho]
  · intro i hfirst hsecond
    rw [blit_apply_of_not (by rw [List.length_drop, hlen]; omega), blit_apply_of_not (by rw [List.length_take, hlen]; omega)]

/-- A UAC1 device with one setting of four channels, 24 bits in 4-byte subslots. -/
def uac1Quad : ConfigDescriptor where
  interface :=
    [[⟨0, 0, 1, 1, [], [9, 0x24, 1, 0x00, 0x01, 0, 0, 1, 1]⟩],
      [⟨1, 1, 1, 2, [⟨0x01, 0x09, 768, 1, 0⟩], [7, 0x24, 1, 1, 1, 1, 0, 11, 0x24, 2, 1, 4, 4, 24, 1, 0x80, 0xBB, 0x00]⟩]]

/-- Two frames on its second pair, packed ten bytes before the end of the ring. -/
theorem packed_region_layout_split :
    ∃ (o : DirectUsbOutput) (p : Playback 64) (mem' : Nat → UInt8),
      let region := (p.preparePlaybackWrite 2).2
      region.firstBytes = 10 ∧ region.secondBytes = 22 ∧
      o.packPlaybackRegionForFormat (fun bits x => BitVec.ofInt bits x) p.ring.data region (fun i => -5 - i) (fun i => 7 + i) =
        some mem' ∧
      copyOut mem' region.first region.firstBytes ++ copyOut mem' 0 region.secondBytes =
        [0, 0, 0, 0, 0, 0, 0, 0, 0, 0xFB, 0xFF, 0xFF, 0, 7, 0, 0, 0, 0, 0, 0, 0, 0, 0, 0, 0, 0xFA, 0xFF, 0xFF, 0, 8, 0, 0] := by
  let f : StreamFormat := (selectAltSetting (some uac1Quad) false ⟨48000, 24, 4, 4⟩).toOption.getD {}
  let o : DirectUsbOutput := { formatBits := 24, formatBytes := 4, deviceChannels := 4, outputPair := 1 }
  let p : Playback 64 := { ring := { Ring.assign .smallest with head := 4086, tail := 4086 }, format := f }
  have hneg : NegotiatesPlayback ⟨48000, 24, 4, 4⟩ f := .generic (some uac1Quad) false rfl
  have hstart : start 48000 24 4 4 1 f f = some o := by
    rw [start, if_neg (by decide), if_neg (by decide)]
    rfl
  obtain ⟨mem', hpacked, hlayout, -⟩ := @packed_region_layout Int 64 o (fun bits x => BitVec.ofInt bits x) _ _ _ _ _ _ _
    hstart hneg p (by decide) rfl 2 (by decide) p.ring.data (fun i => -5 - i) (fun i => 7 + i)
  exact ⟨o, p, mem', by decide, by decide, hpacked, hlayout.trans (by decide)⟩

end DirectUsbOutput

end UacDriver

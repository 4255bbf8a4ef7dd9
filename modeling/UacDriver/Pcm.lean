import UacDriver.Session
import UacDriver.Capture

/-!
# PCM subslots and frames

The encoder and the decoder of `DirectUsbOutput`. `packPcm` shifts a sample to the top of its subslot and stores
the subslot little endian; `unpackPcm` reads the valid bytes at a byte offset and extends the sign itself. The
quantisation of a float is a parameter: any function into the signed integers of the format's width. Memory is
linear and the ring's second span starts at its first byte, as in the regions.
-/

namespace UacDriver

open Circular

def kChannels : Nat := 2
/-- `kMaxTransportChannels`. -/
def kMaxDeviceChannels : Nat := 8
def kMaxSubslotBytes : Nat := 4

/-- The format fields of the adapter, fixed for a session. -/
structure DirectUsbOutput where
  formatBits : Nat := 32
  formatBytes : Nat := 4
  deviceChannels : Nat := kChannels
  outputPair : Nat := 0

/-- The bytes that hold the `bits` of a sample. -/
def validBytes (bits : Nat) : Nat := (bits + 7) / 8

/-- The format checks of `DirectUsbOutput::start`, on the request and then on the formats `playback` and `capture`
that `startDuplex` has negotiated. -/
def DirectUsbOutput.start (sampleRate bitsPerSample bytesPerSample channels outputPair : Int)
    (playback capture : StreamFormat) : Option DirectUsbOutput :=
  if sampleRate ≤ 0 ∨ (bitsPerSample ≠ 16 ∧ bitsPerSample ≠ 24 ∧ bitsPerSample ≠ 32) ∨
      bytesPerSample < validBytes bitsPerSample.toNat ∨ bytesPerSample > kMaxSubslotBytes ∨
      channels < kChannels ∨ channels > kMaxDeviceChannels ∨ outputPair < 0 ∨ outputPair * 2 + 1 ≥ channels then none
  else if playback.channels < kChannels ∨ playback.channels > kMaxDeviceChannels ∨
      capture.channels = 0 ∨ capture.channels > kMaxDeviceChannels ∨
      (capture.bitsPerSample ≠ 16 ∧ capture.bitsPerSample ≠ 24 ∧ capture.bitsPerSample ≠ 32) ∨
      capture.bytesPerSample < validBytes capture.bitsPerSample ∨ capture.bytesPerSample > kMaxSubslotBytes ∨
      outputPair * 2 + 1 ≥ playback.channels then none
  else some {
    formatBits := bitsPerSample.toNat, formatBytes := bytesPerSample.toNat
    deviceChannels := playback.channels, outputPair := outputPair.toNat }

/-! ### One sample -/

/-- Byte `k` of a 32-bit word, counted from the low end. -/
def byteAt (x : BitVec 32) (k : Nat) : UInt8 := ⟨(x >>> (8 * k)).setWidth 8⟩

/-- `packPcm<Bits, Bytes>` of the quantised sample `v`. -/
def packPcm (bits bytes : Nat) (v : BitVec bits) : List UInt8 :=
  let sample : BitVec 32 := v.signExtend 32
  let subslot := sample <<< (8 * (bytes - validBytes bits))
  -- the 4-byte case is one little-endian store
  if bytes = 4 then [byteAt subslot 0, byteAt subslot 1, byteAt subslot 2, byteAt subslot 3]
  else (List.range bytes).map (byteAt subslot)

/-- The first `n` bytes of `input` as a little-endian word. -/
def word (input : Nat → UInt8) : Nat → BitVec 32
  | 0 => 0
  | n + 1 => word input n ||| ((input n).toBitVec.setWidth 32 <<< (8 * n))

/-- `unpackPcm<Bits>`: the integer it forms before it divides by the scale. -/
def unpackPcm (bits : Nat) (input : Nat → UInt8) : Int :=
  if bits = 16 then
    let x := word input 2
    (if x &&& 0x8000#32 ≠ 0 then x ||| 0xffff0000#32 else x).toInt
  else if bits = 24 then
    let x := word input 3
    (if x &&& 0x00800000#32 ≠ 0 then x ||| 0xff000000#32 else x).toInt
  else (word input 4).toInt

theorem packPcm_eq_map (bits bytes : Nat) (v : BitVec bits) :
    packPcm bits bytes v = (List.range bytes).map (byteAt (v.signExtend 32 <<< (8 * (bytes - validBytes bits)))) := by
  unfold packPcm
  split
  · rename_i h
    subst h
    rfl
  · rfl

@[simp] theorem packPcm_length (bits bytes : Nat) (v : BitVec bits) : (packPcm bits bytes v).length = bytes := by
  rw [packPcm_eq_map, List.length_map, List.length_range]

theorem getLsbD_byteAt_shiftLeft (x : BitVec 32) (k i : Nat) :
    ((byteAt x k).toBitVec.setWidth 32 <<< (8 * k)).getLsbD i =
      (decide (8 * k ≤ i ∧ i < 8 * k + 8 ∧ i < 32) && x.getLsbD i) := by
  simp only [byteAt, BitVec.getLsbD_shiftLeft, BitVec.getLsbD_setWidth, BitVec.getLsbD_ushiftRight]
  by_cases h : 8 * k ≤ i ∧ i < 8 * k + 8 ∧ i < 32
  · have hsub : 8 * k + (i - 8 * k) = i := by omega
    have h₁ : i - 8 * k < 8 := by omega
    have h₂ : i - 8 * k < 32 := by omega
    have h₃ : ¬i < 8 * k := by omega
    simp [h, hsub, h₁, h₂, h₃]
  · rw [decide_eq_false h, Bool.false_and]
    simp
    omega

/-- The word read back from the low bytes of `x` has the low bits of `x`. -/
theorem getLsbD_word {input : Nat → UInt8} {x : BitVec 32} {n : Nat} (h : ∀ k < n, input k = byteAt x k) (i : Nat) :
    (word input n).getLsbD i = (decide (i < 8 * n) && x.getLsbD i) := by
  induction n with
  | zero => simp [word]
  | succ n ih =>
    rw [word, BitVec.getLsbD_or, ih fun k hk => h k (by omega), h n (by omega), getLsbD_byteAt_shiftLeft,
      ← Bool.and_or_distrib_right]
    by_cases hi : i < 32
    · congr 1
      rw [← Bool.decide_or]
      exact decide_eq_decide.2 (by omega)
    · rw [BitVec.getLsbD_of_ge x i (by omega), Bool.and_false, Bool.and_false]

theorem getLsbD_word_signExtend {n : Nat} (hn : 8 * n ≤ 32) {v : BitVec (8 * n)} {input : Nat → UInt8}
    (h : ∀ k < n, input k = byteAt (v.signExtend 32) k) (i : Nat) :
    (word input n).getLsbD i = (decide (i < 8 * n) && v.getLsbD i) := by
  rw [getLsbD_word h, BitVec.getLsbD_signExtend]
  by_cases hi : i < 8 * n
  · have : i < 32 := by omega
    simp [hi, this]
  · simp [hi]

/-- Extending the sign by hand: the top bit decides whether the high bits are set. -/
theorem extend_sign {n : Nat} (hn : 0 < n) (hn' : n ≤ 32) (v : BitVec n) {x : BitVec 32}
    (hx : ∀ i, x.getLsbD i = (decide (i < n) && v.getLsbD i)) :
    (if x &&& BitVec.twoPow 32 (n - 1) ≠ 0 then x ||| (BitVec.allOnes 32 <<< n) else x) = v.signExtend 32 := by
  have htop : x.getLsbD (n - 1) = v.msb := by
    rw [hx, BitVec.msb_eq_getLsbD_last]
    simp [Nat.sub_lt hn Nat.one_pos]
  have hset : x &&& BitVec.twoPow 32 (n - 1) ≠ 0 ↔ v.msb = true := by
    rw [BitVec.and_twoPow, htop]
    cases v.msb with
    | false => simp
    | true =>
      have hne : BitVec.twoPow 32 (n - 1) ≠ 0 := fun he => by
        have hbit := congrArg (BitVec.getLsbD · (n - 1)) he
        simp [BitVec.getLsbD_twoPow] at hbit
        omega
      simpa using hne
  refine BitVec.eq_of_getLsbD_eq fun i hi => ?_
  by_cases hm : v.msb = true
  · rw [if_pos (hset.2 hm), BitVec.getLsbD_or, hx, BitVec.getLsbD_signExtend, hm, BitVec.getLsbD_shiftLeft,
      BitVec.getLsbD_allOnes]
    rcases Nat.lt_or_ge i n with h | h
    · simp [h, hi]
    · have hge : ¬i < n := by omega
      have hsub : i - n < 32 := by omega
      simp [hge, hi, hsub]
  · rw [if_neg fun h => hm (hset.1 h), hx, BitVec.getLsbD_signExtend, Bool.eq_false_iff.2 hm]
    rcases Nat.lt_or_ge i n with h | h
    · simp [h, hi]
    · have hge : ¬i < n := by omega
      simp [hge]

/-- The left-justified sample starts behind the padding bytes. -/
theorem byteAt_shiftLeft {x : BitVec 32} {p k : Nat} (h : p + k < 4) :
    byteAt (x <<< (8 * p)) (p + k) = byteAt x k := by
  unfold byteAt
  congr 1
  refine BitVec.eq_of_getLsbD_eq fun i hi => ?_
  simp only [BitVec.getLsbD_setWidth, BitVec.getLsbD_ushiftRight, BitVec.getLsbD_shiftLeft]
  have h₁ : 8 * (p + k) + i < 32 := by omega
  have h₂ : ¬8 * (p + k) + i < 8 * p := by omega
  have h₃ : 8 * (p + k) + i - 8 * p = 8 * k + i := by omega
  simp [h₁, h₂, h₃]

/-- The decoder undoes the encoder on the valid bytes of a subslot. -/
theorem unpackPcm_packPcm {bits bytes : Nat} (hbits : bits = 16 ∨ bits = 24 ∨ bits = 32) (hvalid : validBytes bits ≤ bytes)
    (hbytes : bytes ≤ kMaxSubslotBytes) (v : BitVec bits) {input : Nat → UInt8}
    (hinput : ∀ k < validBytes bits, (packPcm bits bytes v)[bytes - validBytes bits + k]? = some (input k)) :
    unpackPcm bits input = v.toInt := by
  have hlow : ∀ k < validBytes bits, input k = byteAt (v.signExtend 32) k := by
    intro k hk
    have hbyte := hinput k hk
    have hlt : bytes - validBytes bits + k < bytes := by omega
    rw [packPcm_eq_map, List.getElem?_map, List.getElem?_range hlt, Option.map_some, Option.some.injEq] at hbyte
    rw [← hbyte]
    exact byteAt_shiftLeft (by unfold kMaxSubslotBytes at hbytes; omega)
  rcases hbits with rfl | rfl | rfl
  · have hext := extend_sign (by decide) (by decide) v (getLsbD_word_signExtend (n := 2) (by decide) hlow)
    show (if word input 2 &&& BitVec.twoPow 32 15 ≠ 0 then word input 2 ||| (BitVec.allOnes 32 <<< 16)
      else word input 2).toInt = _
    rw [hext, BitVec.toInt_signExtend_of_le (by decide)]
  · have hext := extend_sign (by decide) (by decide) v (getLsbD_word_signExtend (n := 3) (by decide) hlow)
    show (if word input 3 &&& BitVec.twoPow 32 23 ≠ 0 then word input 3 ||| (BitVec.allOnes 32 <<< 24)
      else word input 3).toInt = _
    rw [hext, BitVec.toInt_signExtend_of_le (by decide)]
  · have hword : word input 4 = v := by
      refine BitVec.eq_of_getLsbD_eq fun i hi => ?_
      rw [getLsbD_word_signExtend (n := 4) (by decide) hlow]
      simp [hi]
    show (word input 4).toInt = _
    rw [hword]

/-! ### Encoding a block -/

/-- The whole frames of a span and the bytes of the frame behind them. -/
theorem exists_whole_frames (n : Nat) {stride : Nat} (h : 0 < stride) :
    ∃ f b, b < stride ∧ n = f * stride + b ∧ n / stride = f ∧ n - f * stride = b := by
  have hn : n = n / stride * stride + n % stride := by
    rw [Nat.mul_comm]
    exact (Nat.div_add_mod n stride).symm
  exact ⟨n / stride, n % stride, Nat.mod_lt n h, hn, rfl, by omega⟩

namespace DirectUsbOutput

section Encode

variable {α : Type} {w : Nat} (o : DirectUsbOutput) (quantise : (bits : Nat) → α → BitVec bits)

def packSample (x : α) : List UInt8 := packPcm o.formatBits o.formatBytes (quantise o.formatBits x)

/-- The body of the loop of `packStereoRun`: both samples of the frame at `output`. -/
def packFrame (mem : Nat → UInt8) (output : Nat) (l r : α) : Nat → UInt8 :=
  let leftOffset := o.outputPair * 2 * o.formatBytes
  let rightOffset := leftOffset + o.formatBytes
  blit (blit mem (output + leftOffset) (o.packSample quantise l)) (output + rightOffset) (o.packSample quantise r)

/-- `packStereoRun`: the memory after packing `frames` frames to `destination`. -/
def packStereoRun (mem : Nat → UInt8) (destination frames : Nat) (left right : Nat → α) : Nat → UInt8 :=
  if frames = 0 then mem
  else
    let frameStride := o.deviceChannels * o.formatBytes
    let cleared :=
      if o.deviceChannels ≠ kChannels then blit mem destination (List.replicate (frames * frameStride) 0) else mem
    (List.range frames).foldl
      (fun mem frame => o.packFrame quantise mem (destination + frame * frameStride) (left frame) (right frame)) cleared

def packPlaybackRegion (mem : Nat → UInt8) (region : PlaybackWriteRegion w) (left right : Nat → α) : Nat → UInt8 :=
  let stride := region.frameStride
  let firstFrames := region.firstBytes / stride
  let mem₁ := o.packStereoRun quantise mem region.first firstFrames left right
  let splitBytes := region.firstBytes - firstFrames * stride
  let splitFrame := o.packStereoRun quantise (fun _ => 0) 0 1 (fun i => left (firstFrames + i)) fun i => right (firstFrames + i)
  -- a frame that straddles the end of the ring is packed aside and copied in two parts
  let mem₂ :=
    if 0 < splitBytes then
      blit (blit mem₁ (region.first + firstFrames * stride) (copyOut splitFrame 0 splitBytes)) 0
        (copyOut splitFrame splitBytes (stride - splitBytes))
    else mem₁
  let sourceFrame := if 0 < splitBytes then firstFrames + 1 else firstFrames
  let secondOffset := if 0 < splitBytes then stride - splitBytes else 0
  let remaining := region.frames - sourceFrame
  if 0 < remaining then
    o.packStereoRun quantise mem₂ secondOffset remaining (fun i => left (sourceFrame + i)) fun i => right (sourceFrame + i)
  else mem₂

/-- `packPlaybackRegionForFormat`: refuses a format that has no packer. -/
def packPlaybackRegionForFormat (mem : Nat → UInt8) (region : PlaybackWriteRegion w) (left right : Nat → α) :
    Option (Nat → UInt8) :=
  if (o.formatBits = 16 ∨ o.formatBits = 24 ∨ o.formatBits = 32) ∧
      (o.formatBytes = 2 ∧ validBytes o.formatBits ≤ 2 ∨ o.formatBytes = 3 ∧ validBytes o.formatBits ≤ 3 ∨
        o.formatBytes = 4) then
    some (o.packPlaybackRegion quantise mem region left right)
  else none

/-- `submitQuantum` with the packing it does. -/
def submitQuantum (p : Playback w) (accepting : Bool) (policy : Nat) (left right : Nat → α) (frames : Int)
    (chargeCredit : Bool) : Playback w × Bool :=
  if frames ≤ 0 ∨ frames > kMaxFramesPerWrite ∨ !accepting then (p, false)
  else if frames ≤ p.writableFrames then
    let (p₁, region) := p.preparePlaybackWrite frames
    if region.frames = frames then
      let (p₂, paid) := if !chargeCredit ∨ policy ≠ 1 then (p₁, true) else p₁.takePlaybackCredit frames
      match paid, o.packPlaybackRegionForFormat quantise p₂.ring.data region left right with
      | true, some data =>
        (({ p₂ with ring := { p₂.ring with data } }.commitPlaybackWrite region).noteQuantumWritten, true)
      | _, _ => (p₂, false)
    else (p₁, false)
  else (p, false)

/-- The bytes of one frame: the pair's two subslots between silent channels. -/
def frameBytes (l r : α) : List UInt8 :=
  List.replicate (o.outputPair * 2 * o.formatBytes) 0 ++ o.packSample quantise l ++ o.packSample quantise r ++
    List.replicate ((o.deviceChannels - (o.outputPair * 2 + 2)) * o.formatBytes) 0

/-- The bytes of `n` frames. -/
def encode (left right : Nat → α) (n : Nat) : List UInt8 :=
  (List.range n).flatMap fun i => o.frameBytes quantise (left i) (right i)

/-- What `start` has checked of the adapter's format. -/
structure Accepted : Prop where
  bits : o.formatBits = 16 ∨ o.formatBits = 24 ∨ o.formatBits = 32
  bytes : validBytes o.formatBits ≤ o.formatBytes ∧ o.formatBytes ≤ kMaxSubslotBytes
  channels : kChannels ≤ o.deviceChannels ∧ o.deviceChannels ≤ kMaxDeviceChannels
  pair : o.outputPair * 2 + 1 < o.deviceChannels

variable {o quantise}

@[simp] theorem packSample_length (x : α) : (o.packSample quantise x).length = o.formatBytes := packPcm_length ..

theorem frameBytes_length (h : o.outputPair * 2 + 1 < o.deviceChannels) (l r : α) :
    (o.frameBytes quantise l r).length = o.deviceChannels * o.formatBytes := by
  obtain ⟨rest, hrest⟩ := Nat.exists_eq_add_of_le (show o.outputPair * 2 + 2 ≤ o.deviceChannels from h)
  simp only [frameBytes, List.length_append, List.length_replicate, packSample_length, hrest, Nat.add_sub_cancel_left]
  ring

theorem encode_succ (left right : Nat → α) (n : Nat) :
    o.encode quantise left right (n + 1) =
      o.encode quantise left right n ++ o.frameBytes quantise (left n) (right n) := by
  simp [encode, List.range_succ]

theorem encode_add (left right : Nat → α) (m n : Nat) :
    o.encode quantise left right (m + n) = o.encode quantise left right m ++
      o.encode quantise (fun i => left (m + i)) (fun i => right (m + i)) n := by
  induction n with
  | zero => simp [encode]
  | succ n ih => rw [← Nat.add_assoc, encode_succ, ih, encode_succ, List.append_assoc]

theorem encode_length (h : o.outputPair * 2 + 1 < o.deviceChannels) (left right : Nat → α) (n : Nat) :
    (o.encode quantise left right n).length = n * (o.deviceChannels * o.formatBytes) := by
  induction n with
  | zero => simp [encode]
  | succ n ih => rw [encode_succ, List.length_append, ih, frameBytes_length h, Nat.succ_mul]

/-- The two stores of one frame, over a block that is silent behind the first `k` frames. -/
theorem pack_cleared_frame (hpair : o.outputPair * 2 + 1 < o.deviceChannels) (mem : Nat → UInt8) (destination : Nat)
    (left right : Nat → α) (k m : Nat) :
    let stride := o.deviceChannels * o.formatBytes
    o.packFrame quantise (blit mem destination (o.encode quantise left right k ++ List.replicate ((m + 1) * stride) 0))
        (destination + k * stride) (left k) (right k) =
      blit mem destination (o.encode quantise left right (k + 1) ++ List.replicate (m * stride) 0) := by
  intro stride
  obtain ⟨rest, hrest⟩ := Nat.exists_eq_add_of_le (show o.outputPair * 2 + 2 ≤ o.deviceChannels from hpair)
  have hlen : (o.encode quantise left right k).length = k * stride := encode_length hpair left right k
  have hzeros : List.replicate ((m + 1) * stride) (0 : UInt8) =
      List.replicate (o.outputPair * 2 * o.formatBytes) 0 ++ List.replicate o.formatBytes 0 ++
        (List.replicate o.formatBytes 0 ++ (List.replicate (rest * o.formatBytes) 0 ++ List.replicate (m * stride) 0)) := by
    simp only [List.replicate_append_replicate, stride, hrest]
    congr 1
    ring
  have hframe : o.encode quantise left right (k + 1) ++ List.replicate (m * stride) 0 =
      o.encode quantise left right k ++ List.replicate (o.outputPair * 2 * o.formatBytes) 0 ++
        o.packSample quantise (left k) ++ o.packSample quantise (right k) ++
        (List.replicate (rest * o.formatBytes) 0 ++ List.replicate (m * stride) 0) := by
    simp only [encode_succ, frameBytes, hrest, Nat.add_sub_cancel_left, List.append_assoc]
  have hpre : destination + (o.encode quantise left right k ++
      List.replicate (o.outputPair * 2 * o.formatBytes) 0).length =
      destination + k * stride + o.outputPair * 2 * o.formatBytes := by
    rw [List.length_append, List.length_replicate, hlen, Nat.add_assoc]
  have hpre₂ : destination + (o.encode quantise left right k ++
      List.replicate (o.outputPair * 2 * o.formatBytes) 0 ++ o.packSample quantise (left k)).length =
      destination + k * stride + (o.outputPair * 2 * o.formatBytes + o.formatBytes) := by
    rw [List.length_append, packSample_length, ← Nat.add_assoc, ← Nat.add_assoc, hpre]
  have h₁ := blit_replace mem destination
    (o.encode quantise left right k ++ List.replicate (o.outputPair * 2 * o.formatBytes) 0)
    (List.replicate o.formatBytes 0) (o.packSample quantise (left k))
    (List.replicate o.formatBytes 0 ++ (List.replicate (rest * o.formatBytes) 0 ++ List.replicate (m * stride) 0)) (by simp)
  have h₂ := blit_replace mem destination
    (o.encode quantise left right k ++ List.replicate (o.outputPair * 2 * o.formatBytes) 0 ++
      o.packSample quantise (left k)) (List.replicate o.formatBytes 0) (o.packSample quantise (right k))
    (List.replicate (rest * o.formatBytes) 0 ++ List.replicate (m * stride) 0) (by simp)
  rw [hpre] at h₁
  rw [hpre₂] at h₂
  rw [hzeros, hframe, packFrame]
  simp only [List.append_assoc] at h₁ h₂ ⊢
  rw [h₁, h₂]

/-- A run writes the bytes of its frames, and nothing else. -/
theorem packStereoRun_eq (hpair : o.outputPair * 2 + 1 < o.deviceChannels) (mem : Nat → UInt8) (destination n : Nat)
    (left right : Nat → α) :
    o.packStereoRun quantise mem destination n left right = blit mem destination (o.encode quantise left right n) := by
  unfold packStereoRun
  split
  · rename_i hn
    simp [hn, encode]
  by_cases hch : o.deviceChannels = kChannels
  · -- the pair is the whole frame: every byte is stored, and nothing has to be cleared
    have hfirst : o.outputPair = 0 := by
      rw [hch] at hpair
      unfold kChannels at hpair
      omega
    have hfold : ∀ k, (List.range k).foldl (fun mem frame => o.packFrame quantise mem
        (destination + frame * (o.deviceChannels * o.formatBytes)) (left frame) (right frame)) mem =
        blit mem destination (o.encode quantise left right k) := by
      intro k
      induction k with
      | zero => simp [encode]
      | succ k ih =>
        have hlen : (o.encode quantise left right k).length = k * (o.deviceChannels * o.formatBytes) :=
          encode_length hpair left right k
        have h₁ := blit_append mem destination (o.encode quantise left right k) (o.packSample quantise (left k))
        have h₂ := blit_append mem destination (o.encode quantise left right k ++ o.packSample quantise (left k))
          (o.packSample quantise (right k))
        rw [hlen] at h₁
        rw [List.length_append, packSample_length, hlen, ← Nat.add_assoc] at h₂
        rw [List.range_succ, List.foldl_append, ih, List.foldl_cons, List.foldl_nil, packFrame, hfirst, Nat.zero_mul,
          Nat.add_zero, Nat.zero_add, h₁, h₂, encode_succ]
        simp [frameBytes, hfirst, hch, kChannels]
    rw [hch] at hfold
    simp only [hch, ne_eq, not_true_eq_false, if_false]
    exact hfold n
  · have hfold : ∀ k m, k + m = n → (List.range k).foldl (fun mem frame => o.packFrame quantise mem
        (destination + frame * (o.deviceChannels * o.formatBytes)) (left frame) (right frame))
        (blit mem destination (List.replicate (n * (o.deviceChannels * o.formatBytes)) 0)) =
        blit mem destination
          (o.encode quantise left right k ++ List.replicate (m * (o.deviceChannels * o.formatBytes)) 0) := by
      intro k
      induction k with
      | zero =>
        intro m hm
        rw [← hm, Nat.zero_add]
        rfl
      | succ k ih =>
        intro m hm
        rw [List.range_succ, List.foldl_append, ih (m + 1) (by omega), List.foldl_cons, List.foldl_nil]
        exact pack_cleared_frame hpair mem destination left right k m
    simp only [ne_eq, hch, not_false_eq_true, if_true]
    refine (hfold n 0 rfl).trans ?_
    simp

/-- A block of a region is packed as the region's bytes: a frame that straddles the end of the ring ends in the
second span. -/
theorem packPlaybackRegion_eq (hpair : o.outputPair * 2 + 1 < o.deviceChannels) (hbytes : 0 < o.formatBytes)
    (mem : Nat → UInt8) {region : PlaybackWriteRegion w} (hstride : region.frameStride = o.deviceChannels * o.formatBytes)
    (hsize : region.firstBytes + region.secondBytes = region.frames * region.frameStride) (left right : Nat → α) :
    o.packPlaybackRegion quantise mem region left right =
      blit (blit mem region.first ((o.encode quantise left right region.frames).take region.firstBytes)) 0
        ((o.encode quantise left right region.frames).drop region.firstBytes) := by
  have hpos : 0 < region.frameStride := by
    rw [hstride]
    exact Nat.mul_pos (by omega) hbytes
  -- `f` whole frames and `b` bytes of the next one fit before the end of the ring
  obtain ⟨f, b, hb, hfirst, hdiv, hsplit⟩ := exists_whole_frames region.firstBytes hpos
  have hlen : ∀ n, (o.encode quantise left right n).length = n * region.frameStride := fun n => by
    rw [encode_length hpair, hstride]
  simp only [packPlaybackRegion, hdiv, hsplit, packStereoRun_eq hpair]
  rcases Nat.eq_zero_or_pos b with rfl | hbpos
  · -- the first span ends with a frame
    obtain ⟨r, hr⟩ : ∃ r, region.frames = f + r :=
      Nat.exists_eq_add_of_le (Nat.le_of_mul_le_mul_right (by omega) hpos)
    have htake : (o.encode quantise left right region.frames).take region.firstBytes = o.encode quantise left right f := by
      rw [hr, encode_add, List.take_left' (by rw [hlen, hfirst, Nat.add_zero])]
    have hdrop : (o.encode quantise left right region.frames).drop region.firstBytes =
        o.encode quantise (fun i => left (f + i)) (fun i => right (f + i)) r := by
      rw [hr, encode_add, List.drop_left' (by rw [hlen, hfirst, Nat.add_zero])]
    have hrem : region.frames - f = r := by omega
    rw [htake, hdrop]
    simp only [Nat.lt_irrefl, if_false, hrem]
    split
    · rfl
    · have hr0 : r = 0 := by omega
      simp [hr0, encode]
  · -- frame `f` is split after `b` bytes
    have hlt : f < region.frames := by
      by_contra hge
      have : region.frames * region.frameStride ≤ f * region.frameStride := Nat.mul_le_mul_right _ (by omega)
      omega
    obtain ⟨r, hr⟩ : ∃ r, region.frames = f + (1 + r) := ⟨region.frames - f - 1, by omega⟩
    have hone : o.encode quantise (fun i => left (f + i)) (fun i => right (f + i)) 1 =
        o.frameBytes quantise (left f) (right f) := by simp [encode]
    have hframe : (o.frameBytes quantise (left f) (right f)).length = region.frameStride := by
      rw [frameBytes_length hpair, hstride]
    have henc : o.encode quantise left right region.frames = o.encode quantise left right f ++
        o.frameBytes quantise (left f) (right f) ++
        o.encode quantise (fun i => left (f + 1 + i)) (fun i => right (f + 1 + i)) r := by
      rw [hr, encode_add, encode_add, hone, List.append_assoc]
      simp only [Nat.add_assoc]
    obtain ⟨hsplit₁, hsplit₂⟩ := copyOut_blit_split (fun _ => 0) 0 (o.frameBytes quantise (left f) (right f))
      (k := b) (by omega)
    rw [hframe, Nat.zero_add] at hsplit₂
    have htake : (o.encode quantise left right region.frames).take region.firstBytes =
        o.encode quantise left right f ++ (o.frameBytes quantise (left f) (right f)).take b := by
      rw [henc, hfirst, List.append_assoc, ← hlen f, List.take_length_add_append, List.take_append_of_le_length (by omega)]
    have hdrop : (o.encode quantise left right region.frames).drop region.firstBytes =
        (o.frameBytes quantise (left f) (right f)).drop b ++
          o.encode quantise (fun i => left (f + 1 + i)) (fun i => right (f + 1 + i)) r := by
      rw [henc, hfirst, List.append_assoc, ← hlen f, List.drop_length_add_append, List.drop_append_of_le_length (by omega)]
    have happ := blit_append mem region.first (o.encode quantise left right f)
      ((o.frameBytes quantise (left f) (right f)).take b)
    rw [hlen] at happ
    have hrem : region.frames - (f + 1) = r := by omega
    have happ₂ := blit_append
      (blit mem region.first (o.encode quantise left right f ++ (o.frameBytes quantise (left f) (right f)).take b)) 0
      ((o.frameBytes quantise (left f) (right f)).drop b)
      (o.encode quantise (fun i => left (f + 1 + i)) (fun i => right (f + 1 + i)) r)
    rw [List.length_drop, hframe, Nat.zero_add] at happ₂
    rw [htake, hdrop]
    simp only [hbpos, if_true, hone, hsplit₁, hsplit₂, happ, hrem]
    split
    · exact happ₂
    · have hr0 : r = 0 := by omega
      simp [hr0, encode]

end Encode

/-! ### Decoding a block -/

section Decode

variable {w : Nat}

/-- `unpackCaptureRun`: the integers of one channel, before the division by the scale. -/
def unpackCaptureRun (bits : Nat) (mem : Nat → UInt8) (source frames frameStride sampleOffset : Nat) : List Int :=
  (List.range frames).map fun frame => unpackPcm bits fun k => mem (source + frame * frameStride + sampleOffset + k)

def unpackCaptureChannel (bits : Nat) (mem : Nat → UInt8) (region : CaptureReadRegion w) (sampleOffset frames : Nat) :
    List Int :=
  if frames = 0 ∨ region.frameStride = 0 then []
  else
    let stride := region.frameStride
    let firstFrames := min frames (region.firstBytes / stride)
    let splitBytes := region.firstBytes - firstFrames * stride
    -- a frame that straddles the end of the ring is put together aside
    let splitFrame := blit (blit (fun _ => 0) 0 (copyOut mem (region.first + firstFrames * stride) splitBytes)) splitBytes
      (copyOut mem 0 (stride - splitBytes))
    let split := 0 < splitBytes ∧ firstFrames < frames
    let out := if split then firstFrames + 1 else firstFrames
    let secondOffset := if split then stride - splitBytes else 0
    unpackCaptureRun bits mem region.first firstFrames stride sampleOffset ++
      (if split then unpackCaptureRun bits splitFrame 0 1 stride sampleOffset else []) ++
      if out < frames then unpackCaptureRun bits mem secondOffset (frames - out) stride sampleOffset else []

/-- The dispatch of `readInputChannels` on the bits of the format; `none` leaves the plane alone. -/
def unpackCaptureChannelForBits (bits : Nat) (mem : Nat → UInt8) (region : CaptureReadRegion w)
    (sampleOffset frames : Nat) : Option (List Int) :=
  if bits = 16 ∨ bits = 24 ∨ bits = 32 then some (unpackCaptureChannel bits mem region sampleOffset frames) else none

/-- `readInputChannels`: the planes it writes, nothing when it returns zero. -/
def readInputChannels (c : Capture w) (limit : Nat) (destinationChannels frames : Int) :
    Capture w × Option (List (Option (List Int))) :=
  if destinationChannels ≤ 0 ∨ frames ≤ 0 then (c, none)
  else
    let frames := (min frames kMaxFramesPerWrite).toNat
    let (c₁, region) := c.prepareCaptureRead limit frames
    let format := c.format
    let decodedFrames := min region.frames frames
    let decodeChannels := min destinationChannels.toNat format.channels
    if decodedFrames < frames ∨ decodeChannels = 0 then (c₁.commitCaptureRead region, none)
    else
      let plane channel :=
        unpackCaptureChannelForBits format.bitsPerSample c₁.ring.data region
          (channel * format.bytesPerSample + (format.bytesPerSample - validBytes format.bitsPerSample)) decodedFrames
      (c₁.commitCaptureRead region,
        some ((List.range decodeChannels).map plane ++
          List.replicate (destinationChannels.toNat - decodeChannels) (some (List.replicate frames 0))))

theorem word_congr {input input' : Nat → UInt8} {n : Nat} (h : ∀ k < n, input k = input' k) :
    word input n = word input' n := by
  induction n with
  | zero => rfl
  | succ n ih => rw [word, word, ih fun k hk => h k (by omega), h n (by omega)]

theorem unpackPcm_congr {bits : Nat} (hbits : bits = 16 ∨ bits = 24 ∨ bits = 32) {input input' : Nat → UInt8}
    (h : ∀ k < validBytes bits, input k = input' k) : unpackPcm bits input = unpackPcm bits input' := by
  have hword := word_congr h
  rcases hbits with rfl | rfl | rfl
  · have h₂ : word input 2 = word input' 2 := hword
    simp only [unpackPcm, if_true, h₂]
  · have h₃ : word input 3 = word input' 3 := hword
    simp [unpackPcm, h₃]
  · have h₄ : word input 4 = word input' 4 := hword
    simp [unpackPcm, h₄]

/-- Two runs that find the same bytes decode the same integers. -/
theorem unpackCaptureRun_congr {bits : Nat} (hbits : bits = 16 ∨ bits = 24 ∨ bits = 32) {mem mem' : Nat → UInt8}
    {source source' frames stride offset : Nat} (hoffset : offset + validBytes bits ≤ stride)
    (h : ∀ i < frames * stride, mem (source + i) = mem' (source' + i)) :
    unpackCaptureRun bits mem source frames stride offset = unpackCaptureRun bits mem' source' frames stride offset := by
  refine List.map_congr_left fun f hf => unpackPcm_congr hbits fun k hk => ?_
  have hin : f * stride + offset + k < frames * stride := by
    have : (f + 1) * stride ≤ frames * stride := Nat.mul_le_mul_right _ (List.mem_range.1 hf)
    rw [Nat.succ_mul] at this
    omega
  have := h _ hin
  simpa only [Nat.add_assoc] using this

theorem unpackCaptureRun_add (bits : Nat) (mem : Nat → UInt8) (source m n stride offset : Nat) :
    unpackCaptureRun bits mem source (m + n) stride offset = unpackCaptureRun bits mem source m stride offset ++
      unpackCaptureRun bits mem (source + m * stride) n stride offset := by
  simp only [unpackCaptureRun, List.range_add, List.map_append, List.map_map]
  congr 1
  refine List.map_congr_left fun f _ => ?_
  simp only [Function.comp_apply, Nat.add_mul, Nat.add_assoc]

/-- A channel is decoded from the bytes of the region: the split frame is read across the end of the ring. -/
theorem unpackCaptureChannel_eq {bits : Nat} (hbits : bits = 16 ∨ bits = 24 ∨ bits = 32) {mem : Nat → UInt8}
    {region : CaptureReadRegion w} {offset : Nat} (hpos : 0 < region.frames)
    (hoffset : offset + validBytes bits ≤ region.frameStride)
    (hsize : region.firstBytes + region.secondBytes = region.frames * region.frameStride) {bytes : Nat → UInt8}
    (hfirst : ∀ i < region.firstBytes, bytes i = mem (region.first + i))
    (hsecond : ∀ i < region.secondBytes, bytes (region.firstBytes + i) = mem i) :
    unpackCaptureChannel bits mem region offset region.frames =
      unpackCaptureRun bits bytes 0 region.frames region.frameStride offset := by
  have hstride : 0 < region.frameStride := by
    have : 0 < validBytes bits := by rcases hbits with rfl | rfl | rfl <;> decide
    omega
  obtain ⟨f, b, hb, hspan, hdiv, hsplit⟩ := exists_whole_frames region.firstBytes hstride
  have hf : f ≤ region.frames := Nat.le_of_mul_le_mul_right (by omega) hstride
  have hentered : ¬(region.frames = 0 ∨ region.frameStride = 0) := by omega
  have hmin : min region.frames f = f := Nat.min_eq_right hf
  -- the frames before the split are read in the first span
  have hhead : unpackCaptureRun bits mem region.first f region.frameStride offset =
      unpackCaptureRun bits bytes 0 f region.frameStride offset := by
    refine unpackCaptureRun_congr hbits hoffset fun i hi => ?_
    rw [Nat.zero_add]
    exact (hfirst i (by omega)).symm
  rw [unpackCaptureChannel, if_neg hentered]
  simp only [hdiv, hmin, hsplit, hhead]
  rcases Nat.eq_zero_or_pos b with rfl | hbpos
  · obtain ⟨r, hr⟩ := Nat.exists_eq_add_of_le hf
    have hrem : region.frames - f = r := by omega
    have htail : unpackCaptureRun bits mem 0 r region.frameStride offset =
        unpackCaptureRun bits bytes (0 + f * region.frameStride) r region.frameStride offset := by
      refine unpackCaptureRun_congr hbits hoffset fun i hi => ?_
      have hbytes := hsecond i (by rw [hr, Nat.add_mul] at hsize; omega)
      rw [hspan, Nat.add_zero] at hbytes
      rw [Nat.zero_add, Nat.zero_add]
      exact hbytes.symm
    simp only [Nat.lt_irrefl, false_and, if_false, List.append_nil, hrem, htail]
    split
    · rw [← unpackCaptureRun_add, ← hr]
    · have hrf : region.frames = f := by omega
      rw [List.append_nil, hrf]
  · have hlt : f < region.frames := by
      by_contra hge
      have : region.frames * region.frameStride ≤ f * region.frameStride := Nat.mul_le_mul_right _ (by omega)
      omega
    obtain ⟨r, hr⟩ : ∃ r, region.frames = f + 1 + r := Nat.exists_eq_add_of_le hlt
    have hrem : region.frames - (f + 1) = r := by omega
    have hbound : region.frames * region.frameStride =
        f * region.frameStride + region.frameStride + r * region.frameStride := by
      rw [hr, Nat.add_mul, Nat.add_mul, Nat.one_mul]
    -- the split frame is put together from both spans
    have hmid : unpackCaptureRun bits (blit (blit (fun _ => 0) 0
          (copyOut mem (region.first + f * region.frameStride) b)) b (copyOut mem 0 (region.frameStride - b)))
          0 1 region.frameStride offset =
        unpackCaptureRun bits bytes (0 + f * region.frameStride) 1 region.frameStride offset := by
      refine unpackCaptureRun_congr hbits hoffset fun i hi => ?_
      rw [Nat.one_mul] at hi
      rw [Nat.zero_add, Nat.zero_add, blit_apply, blit_apply]
      rcases Nat.lt_or_ge i b with hib | hib
      · have h₁ := hfirst (f * region.frameStride + i) (by omega)
        have h₂ : ¬b ≤ i := by omega
        rw [if_neg h₂, if_pos (Nat.zero_le i), Nat.sub_zero, h₁, getElem?_copyOut hib, Option.getD_some,
          Nat.add_assoc]
      · have h₁ := hsecond (i - b) (by omega)
        have h₂ : i - b < region.frameStride - b := by omega
        have h₃ : region.firstBytes + (i - b) = f * region.frameStride + i := by omega
        rw [h₃] at h₁
        rw [if_pos hib, h₁, getElem?_copyOut h₂, Option.getD_some, Nat.zero_add]
    have htail : unpackCaptureRun bits mem (region.frameStride - b) r region.frameStride offset =
        unpackCaptureRun bits bytes (0 + (f + 1) * region.frameStride) r region.frameStride offset := by
      refine unpackCaptureRun_congr hbits hoffset fun i hi => ?_
      have h₁ := hsecond (region.frameStride - b + i) (by omega)
      have h₂ : region.firstBytes + (region.frameStride - b + i) = 0 + (f + 1) * region.frameStride + i := by
        rw [Nat.succ_mul]
        omega
      rw [h₂] at h₁
      exact h₁.symm
    have hsplits : 0 < b ∧ f < region.frames := ⟨hbpos, hlt⟩
    simp only [hsplits, and_self, if_true, hmid, hrem, htail]
    rw [← unpackCaptureRun_add]
    split
    · rw [← unpackCaptureRun_add, ← hr]
    · have hrf : region.frames = f + 1 := by omega
      rw [List.append_nil, hrf]

end Decode

end DirectUsbOutput

end UacDriver

import UacDriver.Pcm

/-!
# PCM round trip

What `submitQuantum` publishes is drained byte for byte, delivered as capture packets and decoded by
`readInputChannels`. The block keeps its place through both rings: the playback ring gives back the bytes of
`encode` behind what it held before, the capture ring holds the same bytes wherever its cursors stand, and every
subslot of every frame decodes to the integer that went in.
-/

namespace UacDriver

open Circular Cursor

namespace Ring

variable {w : Nat} {r : Ring w}

/-- Bytes written behind the head and then published are appended to the contents. -/
theorem contents_push {xs : List UInt8} (hfit : r.used + xs.length ≤ r.size.bytes) :
    ((r.writeAt r.head xs).advanceHead xs.length).contents = r.contents ++ xs := by
  have hused : (r.writeAt r.head xs).used + xs.length ≤ (r.writeAt r.head xs).size.bytes := hfit
  rw [contents_advanceHead hused]
  congr 1
  · show window (r.writeAt r.head xs).data r.size.bytes r.tail.toNat r.used = _
    refine window_writeAt_of_le r (toNat_mod_eq_add_dist r.size.dvd_word r.head r.tail) le_rfl ?_
    show r.tail.toNat + r.used + xs.length ≤ r.tail.toNat + r.size.bytes
    omega
  · exact window_writeAt_self r r.head (by omega)

end Ring

/-! ### The playback ring -/

theorem PlaybackWriteRegion.Fits.bytes_eq {w : Nat} {region : PlaybackWriteRegion w} {p : Playback w} (h : region.Fits p) :
    region.firstBytes + region.secondBytes = region.frames * region.frameStride := by
  have := h.firstBytes
  have := h.secondBytes
  omega

namespace Playback

variable {w : Nat} {p : Playback w}

theorem fillRegion_of_le {region : PlaybackWriteRegion w} {data : List UInt8}
    (h : data.length ≤ region.firstBytes + region.secondBytes) (p : Playback w) :
    p.fillRegion region data = { p with ring := { p.ring with
      data := blit (blit p.ring.data region.first (data.take region.firstBytes)) 0 (data.drop region.firstBytes) } } := by
  have hrest : (data.drop region.firstBytes).take region.secondBytes = data.drop region.firstBytes :=
    List.take_of_length_le (by rw [List.length_drop]; omega)
  rw [fillRegion, hrest]
  rfl

/-- A filled and committed region is the ring written behind its head. -/
theorem ring_fill_commit {region : PlaybackWriteRegion w} (h : region.Fits p) {data : List UInt8}
    (hpos : 0 < region.frames) (hstride : 0 < region.frameStride)
    (hlen : data.length = region.frames * region.frameStride) {p₂ : Playback w} (hring : p₂.ring = p.ring) :
    ((p₂.fillRegion region data).commitPlaybackWrite region).ring =
      (p.ring.writeAt p.ring.head data).advanceHead data.length := by
  have hentered : ¬(region.frames = 0 ∨ region.frameStride = 0) := by omega
  rw [fillRegion_of_le (by rw [h.bytes_eq, hlen]), commitPlaybackWrite, if_neg hentered]
  simp only [Ring.writeAt, Ring.advanceHead, Ring.offset_eq, hring, h.cursor, h.first, h.firstBytes, hlen]

theorem takePlaybackCredit_ring (frames : Int) : (p.takePlaybackCredit frames).1.ring = p.ring := by
  unfold takePlaybackCredit
  split
  · rfl
  split
  · rfl
  split <;> rfl

/-- A whole block is published behind what the ring held. -/
theorem submitQuantum_contents (hused : p.ring.used ≤ p.ring.size.bytes) {p' : Playback w} {accepting : Bool}
    {policy : Nat} {frames : Int} {data : List UInt8} {chargeCredit : Bool}
    (hlen : data.length = frames.toNat * p.stride)
    (h : p.submitQuantum accepting policy frames (some data) chargeCredit = (p', true)) :
    0 < frames ∧ frames ≤ kMaxFramesPerWrite ∧ p.ring.used + data.length ≤ p.ring.size.bytes ∧
      p'.ring = (p.ring.writeAt p.ring.head data).advanceHead data.length := by
  unfold submitQuantum at h
  split at h
  · cases h
  rename_i hargs
  split at h
  swap
  · cases h
  dsimp only at h
  split at h
  swap
  · cases h
  rename_i hfull
  obtain ⟨hfits, hpos⟩ : (p.preparePlaybackWrite frames).2.Fits p ∧ 0 < (p.preparePlaybackWrite frames).2.frames := by
    rcases preparePlaybackWrite_region hused frames with hempty | ⟨hfits, hpos, -⟩
    · rw [hempty] at hfull
      have : frames = 0 := hfull.symm
      omega
    · exact ⟨hfits, hpos⟩
  have hframes : (p.preparePlaybackWrite frames).2.frames = frames.toNat := by omega
  have hregion : data.length = (p.preparePlaybackWrite frames).2.frames * (p.preparePlaybackWrite frames).2.frameStride := by
    rw [hlen, hframes, hfits.stride]
  have hstride : 0 < (p.preparePlaybackWrite frames).2.frameStride := by
    by_contra hzero
    have hs : p.stride = 0 := hfits.stride.symm.trans (by omega)
    have hempty : (p.preparePlaybackWrite frames).2 = {} := by simp [preparePlaybackWrite, hs]
    rw [hempty] at hpos
    exact Nat.lt_irrefl 0 hpos
  rcases hpay : (if (!chargeCredit) = true ∨ policy ≠ 1 then ((p.preparePlaybackWrite frames).1, true)
    else (p.preparePlaybackWrite frames).1.takePlaybackCredit frames) with ⟨p₂, paid⟩
  have hring : p₂.ring = p.ring := by
    have hfst : p₂ = (if (!chargeCredit) = true ∨ policy ≠ 1 then ((p.preparePlaybackWrite frames).1, true)
      else (p.preparePlaybackWrite frames).1.takePlaybackCredit frames).1 := by rw [hpay]
    rw [hfst]
    split
    · exact preparePlaybackWrite_ring frames
    · exact (takePlaybackCredit_ring frames).trans (preparePlaybackWrite_ring frames)
  rw [hpay] at h
  cases paid with
  | false => cases h
  | true =>
    cases h
    refine ⟨by omega, by omega, ?_, ring_fill_commit hfits hpos hstride hregion hring⟩
    rw [hregion]
    exact hfits.fit

/-- `drainRing` for each of the sizes in turn: the state after them and the bytes in order. -/
def drains : List Nat → Playback w → Playback w × List UInt8
  | [], p => (p, [])
  | bytes :: rest, p =>
    let d := p.drainRing bytes
    let r := drains rest d.1
    (r.1, d.2 ++ r.2)

/-- Enough drains give the contents of the ring. -/
theorem drains_all (hused : p.ring.used ≤ p.ring.size.bytes) {sizes : List Nat} (h : p.ring.used ≤ sizes.sum) :
    (drains sizes p).2 = p.ring.contents := by
  induction sizes generalizing p with
  | nil =>
    have hzero : p.ring.contents.length = 0 := by
      rw [Ring.contents_length]
      exact Nat.le_zero.1 h
    exact (List.eq_nil_of_length_eq_zero hzero).symm
  | cons bytes rest ih =>
    have hleft : (p.drainRing bytes).1.ring.used = p.ring.used - p.drainCount bytes := drainRing_used bytes
    have hcount : p.drainCount bytes = min p.ring.used bytes := rfl
    rw [List.sum_cons] at h
    have hrest := ih (p := (p.drainRing bytes).1) (by rw [hleft, drainRing_size]; omega) (by omega)
    show (p.drainRing bytes).2 ++ (drains rest (p.drainRing bytes).1).2 = _
    rw [hrest, drainRing_contents bytes hused]

end Playback

/-! ### The capture ring -/

namespace Capture

variable {w : Nat} {c : Capture w}

/-- The completions of a session in turn. -/
def receives (c : Capture w) (completions : List (List (Option (List UInt8)))) : Capture w :=
  completions.foldl receive c

/-- The bytes of the packets that arrived. -/
def delivered (pkts : List (Option (List UInt8))) : List UInt8 := (pkts.filterMap id).flatten

/-- A packet of whole frames that fits is kept whole. -/
theorem keepCount_of_fits {g : CaptureProgress w} {n : Nat} (hn : c.stride ∣ n)
    (hfit : dist g.head g.tail + n ≤ c.ring.size.bytes) : c.keepCount g n = n := by
  have hle : n ≤ c.ring.size.bytes - dist g.head g.tail - (c.ring.size.bytes - dist g.head g.tail) % c.stride := by
    obtain ⟨k, rfl⟩ := hn
    have hfree : c.stride * k ≤ c.ring.size.bytes - dist g.head g.tail := by omega
    generalize c.ring.size.bytes - dist g.head g.tail = free at hfree ⊢
    have hdiv := Nat.div_add_mod free c.stride
    rcases Nat.eq_zero_or_pos c.stride with hs | hs
    · simp [hs]
    · have hk : k ≤ free / c.stride := (Nat.le_div_iff_mul_le hs).2 (by rw [Nat.mul_comm]; exact hfree)
      have := Nat.mul_le_mul_left c.stride hk
      omega
  exact Nat.min_eq_left hle

/-- The packet loop, seen through its private head: packets of whole frames that fit are appended. -/
theorem contents_foldl_acceptPacket {pkts : List (Option (List UInt8))} {s : Capture w × CaptureProgress w}
    (htail : s.2.tail = s.1.ring.tail) (hwhole : ∀ pkt, some pkt ∈ pkts → s.1.stride ∣ pkt.length)
    (hfit : dist s.2.head s.2.tail + (delivered pkts).length ≤ s.1.ring.size.bytes) :
    let r := pkts.foldl (fun s pkt => s.1.acceptPacket s.2 pkt) s
    ({ r.1.ring with head := r.2.head } : Ring w).contents =
      ({ s.1.ring with head := s.2.head } : Ring w).contents ++ delivered pkts := by
  induction pkts generalizing s with
  | nil => exact (List.append_nil _).symm
  | cons pkt pkts ih =>
    cases pkt with
    | none => exact ih htail (fun pkt h => hwhole pkt (List.mem_cons_of_mem _ h)) hfit
    | some bytes =>
      have hsplit : delivered (some bytes :: pkts) = bytes ++ delivered pkts := by simp [delivered]
      rw [hsplit, List.length_append] at hfit
      have hkeep : s.1.keepCount s.2 bytes.length = bytes.length :=
        keepCount_of_fits (hwhole bytes List.mem_cons_self) (by omega)
      have hused : ({ s.1.ring with head := s.2.head } : Ring w).used + bytes.length ≤ s.1.ring.size.bytes := by
        show dist s.2.head s.1.ring.tail + bytes.length ≤ _
        rw [← htail]
        omega
      have hpush := Ring.contents_push hused
      have hdist : dist (s.2.head + BitVec.ofNat w bytes.length) s.2.tail = dist s.2.head s.2.tail + bytes.length :=
        Cursor.dist_add_left (Nat.lt_of_le_of_lt (by omega) s.1.ring.size.lt)
      have hnext := ih (s := s.1.acceptPacket s.2 (some bytes)) htail
        (fun pkt h => hwhole pkt (List.mem_cons_of_mem _ h)) (by
          simp only [acceptPacket, hkeep]
          show dist (s.2.head + BitVec.ofNat w bytes.length) s.2.tail + _ ≤ s.1.ring.size.bytes
          rw [hdist]
          omega)
      refine hnext.trans ?_
      rw [hsplit, ← List.append_assoc, ← hpush]
      congr 1
      simp only [acceptPacket, hkeep, List.take_length]
      rfl

theorem receive_contents {pkts : List (Option (List UInt8))} (hwhole : ∀ pkt, some pkt ∈ pkts → c.stride ∣ pkt.length)
    (hfit : c.ring.used + (delivered pkts).length ≤ c.ring.size.bytes) :
    (c.receive pkts).ring.contents = c.ring.contents ++ delivered pkts :=
  contents_foldl_acceptPacket (s := (c, c.begin_)) rfl hwhole hfit

theorem receive_size (pkts : List (Option (List UInt8))) : (c.receive pkts).ring.size = c.ring.size :=
  (foldl_acceptPacket pkts (c, c.begin_)).2.2.1

/-- Completions that fit are appended, wherever the cursors stand. -/
theorem receives_contents {completions : List (List (Option (List UInt8)))}
    (hwhole : ∀ pkt, some pkt ∈ completions.flatten → c.stride ∣ pkt.length)
    (hfit : c.ring.used + (delivered completions.flatten).length ≤ c.ring.size.bytes) :
    (c.receives completions).ring.contents = c.ring.contents ++ delivered completions.flatten ∧
      (c.receives completions).ring.size = c.ring.size ∧ (c.receives completions).format = c.format ∧
      (c.receives completions).captureActive = c.captureActive := by
  induction completions generalizing c with
  | nil => exact ⟨by simp [receives, delivered], rfl, rfl, rfl⟩
  | cons pkts rest ih =>
    have hsplit : delivered (pkts :: rest).flatten = delivered pkts ++ delivered rest.flatten := by simp [delivered]
    rw [hsplit, List.length_append] at hfit
    have hone : (c.receive pkts).ring.contents = c.ring.contents ++ delivered pkts :=
      receive_contents (fun pkt h => hwhole pkt (by simp [h])) (by omega)
    have hused : (c.receive pkts).ring.used = c.ring.used + (delivered pkts).length := by
      rw [← Ring.contents_length, hone, List.length_append, Ring.contents_length]
    have hstride : (c.receive pkts).stride = c.stride := congrArg StreamFormat.frameStride (receive_format pkts)
    obtain ⟨h₁, h₂, h₃, h₄⟩ := ih (c := c.receive pkts)
      (fun pkt h => by rw [hstride]; exact hwhole pkt (by rw [List.flatten_cons]; exact List.mem_append_right _ h))
      (by rw [hused, receive_size]; omega)
    refine ⟨?_, h₂.trans (receive_size pkts), h₃.trans (receive_format pkts), h₄.trans (receive_active pkts)⟩
    show ((c.receive pkts).receives rest).ring.contents = _
    rw [h₁, hone, hsplit, List.append_assoc]

/-- A read of everything the ring holds: both spans from the tail on. -/
theorem prepareCaptureRead_all {limit n : Nat} (hactive : c.captureActive = true) (hn : 0 < n) (hstride : 0 < c.stride)
    (hused : c.ring.used = n * c.stride) (hfit : c.ring.used ≤ c.ring.size.bytes) (hlimit : n ≤ limit) :
    let region := (c.prepareCaptureRead limit n).2
    (c.prepareCaptureRead limit n).1.ring = c.ring ∧ region.frames = n ∧ region.frameStride = c.stride ∧
      region.firstBytes + region.secondBytes = n * c.stride ∧ c.regionBytes region = c.ring.contents := by
  have hargs : ¬((!c.captureActive) = true ∨ (n : Int) ≤ 0 ∨ c.stride = 0) := by
    simp only [hactive, Bool.not_true, Bool.false_eq_true, false_or]
    omega
  have hcursor : c.readCursor limit = c.ring.tail := by
    have : n * c.stride ≤ limit * c.stride := Nat.mul_le_mul_right _ hlimit
    rw [readCursor, if_neg (by omega)]
  have hframes : min (dist c.ring.head c.ring.tail / c.stride) n = n := by
    have hdist : dist c.ring.head c.ring.tail = n * c.stride := hused
    rw [hdist, Nat.mul_div_cancel _ hstride, Nat.min_self]
  intro region
  have hregion : region = {
      first := c.ring.offset c.ring.tail, firstBytes := min (n * c.stride) (c.ring.size.bytes - c.ring.offset c.ring.tail)
      secondBytes := n * c.stride - min (n * c.stride) (c.ring.size.bytes - c.ring.offset c.ring.tail)
      consumerCursor := c.ring.tail, frames := n, frameStride := c.stride } := by
    simp only [region, prepareCaptureRead, hargs, if_false, hcursor, Int.toNat_natCast, hframes]
  refine ⟨?_, by rw [hregion], by rw [hregion], ?_, ?_⟩
  · unfold prepareCaptureRead
    split <;> rfl
  · rw [hregion]
    dsimp only
    omega
  · rw [hregion, regionBytes]
    dsimp only
    rw [← hused]
    exact c.ring.readAt_eq_window hfit

end Capture

namespace DirectUsbOutput
variable {α : Type} {w : Nat} {o : DirectUsbOutput} {quantise : (bits : Nat) → α → BitVec bits}

/-! ### The frames of a block -/

/-- The sample that channel `ch` carries in a frame. -/
def channelValue (o : DirectUsbOutput) (quantise : (bits : Nat) → α → BitVec bits) (l r : α) (ch : Nat) :
    BitVec o.formatBits :=
  if ch = o.outputPair * 2 then quantise o.formatBits l
  else if ch = o.outputPair * 2 + 1 then quantise o.formatBits r
  else 0

/-- Silence is the encoding of zero. -/
theorem packPcm_zero (bits bytes : Nat) : packPcm bits bytes 0 = List.replicate bytes 0 := by
  have hzero : (0 : BitVec bits).signExtend 32 = 0 := by
    refine BitVec.eq_of_getLsbD_eq fun i _ => ?_
    simp [BitVec.getLsbD_signExtend]
  rw [packPcm_eq_map, hzero]
  refine List.ext_getElem (by simp) fun i _ _ => ?_
  simp [byteAt]

/-- Element `j` of block `i` in a list of blocks of `n` elements. -/
theorem getElem?_blocks {β : Type} {f : Nat → List β} {n : Nat} (hf : ∀ i, (f i).length = n) {m i j : Nat} (hi : i < m)
    (hj : j < n) : ((List.range m).flatMap f)[i * n + j]? = (f i)[j]? := by
  have hlen : ∀ k, ((List.range k).flatMap f).length = k * n := fun k => by
    simp [List.length_flatMap, hf]
  obtain ⟨r, rfl⟩ : ∃ r, m = i + (1 + r) := ⟨m - i - 1, by omega⟩
  rw [List.range_add, List.flatMap_append, List.getElem?_append_right (by rw [hlen]; omega), hlen,
    Nat.add_sub_cancel_left, Nat.add_comm 1 r, List.range_succ_eq_map, List.map_cons, List.flatMap_cons,
    List.getElem?_append_left (by rw [hf]; exact hj), Nat.add_zero]

/-- A frame is the subslots of its channels. -/
theorem frameBytes_eq (hpair : o.outputPair * 2 + 1 < o.deviceChannels) (l r : α) :
    o.frameBytes quantise l r = (List.range o.deviceChannels).flatMap fun ch =>
      packPcm o.formatBits o.formatBytes (o.channelValue quantise l r ch) := by
  have hsilent : ∀ chs : List Nat, (∀ ch ∈ chs, o.channelValue quantise l r ch = 0) →
      (chs.flatMap fun ch => packPcm o.formatBits o.formatBytes (o.channelValue quantise l r ch)) =
        List.replicate (chs.length * o.formatBytes) 0 := by
    intro chs h
    induction chs with
    | nil => simp
    | cons ch chs ih =>
      rw [List.flatMap_cons, h ch List.mem_cons_self, packPcm_zero, ih fun c hc => h c (List.mem_cons_of_mem _ hc),
        List.replicate_append_replicate, List.length_cons, Nat.succ_mul, Nat.add_comm]
  obtain ⟨rest, hrest⟩ := Nat.exists_eq_add_of_le (show o.outputPair * 2 + 2 ≤ o.deviceChannels from hpair)
  have hbefore := hsilent (List.range (o.outputPair * 2)) fun ch hch => by
    have := List.mem_range.1 hch
    rw [channelValue, if_neg (by omega), if_neg (by omega)]
  have hbehind := hsilent ((List.range rest).map (o.outputPair * 2 + 2 + ·)) fun ch hch => by
    obtain ⟨i, -, rfl⟩ := List.mem_map.1 hch
    rw [channelValue, if_neg (by omega), if_neg (by omega)]
  rw [List.length_range] at hbefore
  rw [List.length_map, List.length_range] at hbehind
  have hleft : o.channelValue quantise l r (o.outputPair * 2) = quantise o.formatBits l := if_pos rfl
  have hright : o.channelValue quantise l r (o.outputPair * 2 + 1) = quantise o.formatBits r := by
    rw [channelValue, if_neg (by omega), if_pos rfl]
  rw [hrest, List.range_add, List.flatMap_append, hbehind, List.range_succ, List.flatMap_append, List.range_succ,
    List.flatMap_append, hbefore]
  simp [frameBytes, packSample, hleft, hright, hrest]

/-- The subslot of channel `ch` in frame `f` of a block. -/
theorem getElem?_encode (hpair : o.outputPair * 2 + 1 < o.deviceChannels) (left right : Nat → α) {n f ch j : Nat}
    (hf : f < n) (hch : ch < o.deviceChannels) (hj : j < o.formatBytes) :
    (o.encode quantise left right n)[f * (o.deviceChannels * o.formatBytes) + (ch * o.formatBytes + j)]? =
      (packPcm o.formatBits o.formatBytes (o.channelValue quantise (left f) (right f) ch))[j]? := by
  have hin : ch * o.formatBytes + j < o.deviceChannels * o.formatBytes := by
    have : (ch + 1) * o.formatBytes ≤ o.deviceChannels * o.formatBytes := Nat.mul_le_mul_right _ hch
    rw [Nat.succ_mul] at this
    omega
  rw [encode, getElem?_blocks (fun i => frameBytes_length hpair _ _) hf hin, frameBytes_eq hpair,
    getElem?_blocks (fun ch => packPcm_length ..) hch hj]

/-- Decoding channel `ch` of an encoded block gives its samples back. -/
theorem unpackCaptureRun_encode (ho : o.Accepted) (left right : Nat → α) {n ch : Nat} (hch : ch < o.deviceChannels) :
    unpackCaptureRun o.formatBits (fun i => (o.encode quantise left right n).getD i 0) 0 n
      (o.deviceChannels * o.formatBytes) (ch * o.formatBytes + (o.formatBytes - validBytes o.formatBits)) =
      (List.range n).map fun f => (o.channelValue quantise (left f) (right f) ch).toInt := by
  refine List.map_congr_left fun f hf => ?_
  refine unpackPcm_packPcm ho.bits ho.bytes.1 ho.bytes.2 _ fun k hk => ?_
  have hvalid := ho.bytes.1
  have hj : o.formatBytes - validBytes o.formatBits + k < o.formatBytes := by omega
  have hbyte : (o.encode quantise left right n)[_]? = _ :=
    getElem?_encode ho.pair left right (List.mem_range.1 hf) hch hj
  have hlt : o.formatBytes - validBytes o.formatBits + k <
      (packPcm o.formatBits o.formatBytes (o.channelValue quantise (left f) (right f) ch)).length := by
    rw [packPcm_length]
    omega
  have hplace : 0 + f * (o.deviceChannels * o.formatBytes) +
      (ch * o.formatBytes + (o.formatBytes - validBytes o.formatBits)) + k =
      f * (o.deviceChannels * o.formatBytes) + (ch * o.formatBytes + (o.formatBytes - validBytes o.formatBits + k)) := by
    omega
  show _ = some (List.getD _ _ 0)
  rw [hplace, List.getD_eq_getElem?_getD, hbyte, List.getElem?_eq_getElem hlt, Option.getD_some]

/-- The packer of an accepted format writes the block's bytes to the region. -/
theorem packForFormat_eq (ho : o.Accepted) {p : Playback w} {region : PlaybackWriteRegion w} (hfits : region.Fits p)
    (hstride : p.stride = o.deviceChannels * o.formatBytes) (mem : Nat → UInt8) (left right : Nat → α) :
    o.packPlaybackRegionForFormat quantise mem region left right =
      some (blit (blit mem region.first ((o.encode quantise left right region.frames).take region.firstBytes)) 0
        ((o.encode quantise left right region.frames).drop region.firstBytes)) := by
  obtain ⟨hvalid, hmax⟩ := ho.bytes
  have hpos : 0 < validBytes o.formatBits := by
    rcases ho.bits with h | h | h <;> rw [h] <;> decide
  have hdispatch : (o.formatBits = 16 ∨ o.formatBits = 24 ∨ o.formatBits = 32) ∧
      (o.formatBytes = 2 ∧ validBytes o.formatBits ≤ 2 ∨ o.formatBytes = 3 ∧ validBytes o.formatBits ≤ 3 ∨
        o.formatBytes = 4) := by
    refine ⟨ho.bits, ?_⟩
    have htwo : 2 ≤ validBytes o.formatBits := by
      rcases ho.bits with h | h | h <;> rw [h] <;> decide
    unfold kMaxSubslotBytes at hmax
    omega
  rw [packPlaybackRegionForFormat, if_pos hdispatch,
    packPlaybackRegion_eq ho.pair (by omega) mem (hfits.stride.trans hstride) hfits.bytes_eq]

/-- `submitQuantum` packs the bytes of the block. -/
theorem submitQuantum_eq (ho : o.Accepted) {p : Playback w} (hused : p.ring.used ≤ p.ring.size.bytes)
    (hstride : p.stride = o.deviceChannels * o.formatBytes) (accepting : Bool) (policy : Nat) (left right : Nat → α)
    (frames : Int) (chargeCredit : Bool) :
    o.submitQuantum quantise p accepting policy left right frames chargeCredit =
      p.submitQuantum accepting policy frames (some (o.encode quantise left right frames.toNat)) chargeCredit := by
  unfold submitQuantum Playback.submitQuantum
  split
  · rfl
  rename_i hargs
  split
  swap
  · rfl
  dsimp only
  split
  swap
  · rfl
  rename_i hfull
  have hfits : (p.preparePlaybackWrite frames).2.Fits p := by
    rcases Playback.preparePlaybackWrite_region hused frames with hempty | ⟨hfits, -⟩
    · rw [hempty] at hfull
      have : frames = 0 := hfull.symm
      omega
    · exact hfits
  have hframes : (p.preparePlaybackWrite frames).2.frames = frames.toNat := by omega
  rcases hpay : (if (!chargeCredit) = true ∨ policy ≠ 1 then ((p.preparePlaybackWrite frames).1, true)
    else (p.preparePlaybackWrite frames).1.takePlaybackCredit frames) with ⟨p₂, paid⟩
  rw [packForFormat_eq ho hfits hstride, hframes]
  cases paid with
  | false => rfl
  | true =>
    have hlen : (o.encode quantise left right frames.toNat).length ≤
        (p.preparePlaybackWrite frames).2.firstBytes + (p.preparePlaybackWrite frames).2.secondBytes := by
      rw [encode_length ho.pair, ← hstride, ← hframes, ← hfits.stride, hfits.bytes_eq]
    simp only [Playback.fillRegion_of_le hlen]

/-! ### There and back -/

/-- What a read of `n` frames finds on channel `ch`. -/
def recovered (o : DirectUsbOutput) (quantise : (bits : Nat) → α → BitVec bits) (left right : Nat → α) (n ch : Nat) :
    List Int :=
  (List.range n).map fun f => (o.channelValue quantise (left f) (right f) ch).toInt

theorem recovered_of_ge (hpair : o.outputPair * 2 + 1 < o.deviceChannels) (left right : Nat → α) (n : Nat) {ch : Nat}
    (hch : o.deviceChannels ≤ ch) : o.recovered quantise left right n ch = List.replicate n 0 := by
  have hzero : ∀ f, (o.channelValue quantise (left f) (right f) ch).toInt = 0 := fun f => by
    rw [channelValue, if_neg (by omega), if_neg (by omega)]
    exact BitVec.toInt_zero
  simp [recovered, hzero]

/-- A read region that holds an encoded block decodes to the block's samples, on every channel. -/
theorem unpackCaptureChannel_encode (ho : o.Accepted) {c : Capture w} {region : CaptureReadRegion w} {left right : Nat → α}
    (hpos : 0 < region.frames) (hstride : region.frameStride = o.deviceChannels * o.formatBytes)
    (hsize : region.firstBytes + region.secondBytes = region.frames * region.frameStride)
    (hbytes : c.regionBytes region = o.encode quantise left right region.frames) {ch : Nat} (hch : ch < o.deviceChannels) :
    unpackCaptureChannel o.formatBits c.ring.data region
        (ch * o.formatBytes + (o.formatBytes - validBytes o.formatBits)) region.frames =
      o.recovered quantise left right region.frames ch := by
  have hvalid := ho.bytes.1
  have hoffset : ch * o.formatBytes + (o.formatBytes - validBytes o.formatBits) + validBytes o.formatBits ≤
      region.frameStride := by
    have : (ch + 1) * o.formatBytes ≤ o.deviceChannels * o.formatBytes := Nat.mul_le_mul_right _ hch
    rw [Nat.succ_mul] at this
    omega
  have hfirst : ∀ i < region.firstBytes,
      (o.encode quantise left right region.frames).getD i 0 = c.ring.data (region.first + i) := by
    intro i hi
    rw [List.getD_eq_getElem?_getD, ← hbytes, Capture.regionBytes, List.getElem?_append_left (by simpa using hi),
      getElem?_copyOut hi, Option.getD_some]
  have hsecond : ∀ i < region.secondBytes,
      (o.encode quantise left right region.frames).getD (region.firstBytes + i) 0 = c.ring.data i := by
    intro i hi
    rw [List.getD_eq_getElem?_getD, ← hbytes, Capture.regionBytes, List.getElem?_append_right (by simp),
      copyOut_length, Nat.add_sub_cancel_left, getElem?_copyOut hi, Option.getD_some, Nat.zero_add]
  rw [unpackCaptureChannel_eq ho.bits hpos hoffset hsize hfirst hsecond, hstride]
  exact unpackCaptureRun_encode ho left right hch

theorem readInputChannels_encode (ho : o.Accepted) {c : Capture w} {limit n : Nat} {left right : Nat → α} (hn : 0 < n)
    (hmax : n ≤ kMaxFramesPerWrite) (hactive : c.captureActive = true) (hchannels : c.format.channels = o.deviceChannels)
    (hbytes : c.format.bytesPerSample = o.formatBytes) (hbits : c.format.bitsPerSample = o.formatBits)
    (hcontents : c.ring.contents = o.encode quantise left right n) (hfit : c.ring.used ≤ c.ring.size.bytes)
    (hlimit : n ≤ limit) {destinationChannels : Int} (hdest : 0 < destinationChannels) :
    (readInputChannels c limit destinationChannels n).2 =
      some ((List.range destinationChannels.toNat).map fun ch => some (o.recovered quantise left right n ch)) := by
  have hstride : c.stride = o.deviceChannels * o.formatBytes := by
    rw [Capture.stride, StreamFormat.frameStride, hchannels, hbytes]
  have hpair := ho.pair
  have hpos : 0 < c.stride := by
    have htwo : 2 ≤ validBytes o.formatBits := by
      rcases ho.bits with h | h | h <;> rw [h] <;> decide
    have := ho.bytes.1
    rw [hstride]
    exact Nat.mul_pos (by omega) (by omega)
  have hused : c.ring.used = n * c.stride := by
    rw [← Ring.contents_length, hcontents, encode_length hpair, hstride]
  obtain ⟨hring, hframes, hfs, hsize, hregion⟩ := Capture.prepareCaptureRead_all hactive hn hpos hused hfit hlimit
  have hargs : ¬(destinationChannels ≤ 0 ∨ (n : Int) ≤ 0) := by omega
  have hclamp : (min (n : Int) kMaxFramesPerWrite).toNat = n := by omega
  have hread : ¬(n < n ∨ min destinationChannels.toNat c.format.channels = 0) := by omega
  have hplane : ∀ ch < o.deviceChannels,
      unpackCaptureChannelForBits c.format.bitsPerSample (c.prepareCaptureRead limit n).1.ring.data
        (c.prepareCaptureRead limit n).2
        (ch * c.format.bytesPerSample + (c.format.bytesPerSample - validBytes c.format.bitsPerSample)) n =
      some (o.recovered quantise left right n ch) := by
    intro ch hch
    have hblock : c.regionBytes (c.prepareCaptureRead limit n).2 =
        o.encode quantise left right (c.prepareCaptureRead limit n).2.frames := by
      rw [hregion, hcontents, hframes]
    have hdecode := unpackCaptureChannel_encode ho (by rw [hframes]; exact hn) (by rw [hfs, hstride])
      (by rw [hframes, hfs]; exact hsize) hblock hch
    rw [hframes] at hdecode
    rw [unpackCaptureChannelForBits, hbits, hbytes, hring, if_pos ho.bits, hdecode]
  have hplanes : (List.range destinationChannels.toNat).map (fun ch => some (o.recovered quantise left right n ch)) =
      (List.range (min destinationChannels.toNat c.format.channels)).map (fun ch =>
        unpackCaptureChannelForBits c.format.bitsPerSample (c.prepareCaptureRead limit n).1.ring.data
          (c.prepareCaptureRead limit n).2
          (ch * c.format.bytesPerSample + (c.format.bytesPerSample - validBytes c.format.bitsPerSample)) n) ++
      List.replicate (destinationChannels.toNat - min destinationChannels.toNat c.format.channels)
        (some (List.replicate n 0)) := by
    obtain ⟨r, hr⟩ : ∃ r, destinationChannels.toNat = min destinationChannels.toNat c.format.channels + r :=
      Nat.exists_eq_add_of_le (Nat.min_le_left ..)
    have hleft : destinationChannels.toNat - min destinationChannels.toNat c.format.channels = r := by omega
    rw [hleft]
    conv_lhs => rw [hr]
    rw [List.range_add, List.map_append, List.map_map]
    congr 1
    · refine List.map_congr_left fun ch hch => ?_
      have := List.mem_range.1 hch
      exact (hplane ch (by omega)).symm
    · -- channels beyond the format's are silent
      refine List.eq_replicate_iff.2 ⟨by simp, fun plane hp => ?_⟩
      obtain ⟨i, hi, rfl⟩ := List.mem_map.1 hp
      have := List.mem_range.1 hi
      have hbeyond : o.deviceChannels ≤ min destinationChannels.toNat c.format.channels + i := by omega
      exact congrArg some (recovered_of_ge hpair left right n hbeyond)
  rw [hplanes]
  simp only [readInputChannels, hargs, if_false, hclamp, hframes, Nat.min_self, hread]

/-- What `start` accepts is an accepted format. -/
theorem accepted_of_start {sampleRate bitsPerSample bytesPerSample channels outputPair : Int}
    {playback capture : StreamFormat}
    (h : start sampleRate bitsPerSample bytesPerSample channels outputPair playback capture = some o) :
    o.Accepted ∧ o.deviceChannels = playback.channels ∧ o.outputPair = outputPair.toNat ∧
      (o.formatBytes : Int) = bytesPerSample ∧ (o.formatBits : Int) = bitsPerSample := by
  unfold start at h
  split at h
  · cases h
  rename_i hrequest
  split at h
  · cases h
  rename_i hformats
  cases h
  simp only [not_or, not_and, not_lt, not_le, Decidable.not_not] at hrequest hformats
  obtain ⟨-, hbits, hlow, hhigh, -, -, hpair, -⟩ := hrequest
  have hbits' : bitsPerSample.toNat = 16 ∨ bitsPerSample.toNat = 24 ∨ bitsPerSample.toNat = 32 := by
    by_cases h16 : bitsPerSample = 16
    · omega
    by_cases h24 : bitsPerSample = 24
    · omega
    have := hbits h16 h24
    omega
  refine ⟨⟨hbits', ⟨?_, ?_⟩, ⟨?_, ?_⟩, ?_⟩, rfl, rfl, ?_, ?_⟩ <;> dsimp only <;> omega

/-- PCM decode undoes encode end to end. A block that `submitQuantum` has published behind whatever the playback ring
held is drained, fed back as capture packets of the same format and read: the pair's channels carry the quantised
integers in order, every other channel zero, for all cursors of both rings. -/
theorem pcm_round_trip {sampleRate bitsPerSample bytesPerSample channels outputPair : Int}
    {playback capture : StreamFormat}
    (hstart : start sampleRate bitsPerSample bytesPerSample channels outputPair playback capture = some o)
    -- publish
    {p p' : Playback w} (hused : p.ring.used ≤ p.ring.size.bytes) (hplayback : p.format = playback)
    (hsubslot : (playback.bytesPerSample : Int) = bytesPerSample) {accepting : Bool} {policy : Nat}
    {left right : Nat → α} {frames : Int} {chargeCredit : Bool}
    (hsubmit : o.submitQuantum quantise p accepting policy left right frames chargeCredit = (p', true))
    -- drain
    {sizes : List Nat} (hdrained : p'.ring.used ≤ sizes.sum)
    -- feed
    {c : Capture w} (hempty : c.ring.used = 0) (hactive : c.captureActive = true) (hsize : c.ring.size = p.ring.size)
    (hcapture : c.format = capture) (hchannels : capture.channels = playback.channels)
    (hbytes : capture.bytesPerSample = playback.bytesPerSample) (hbits : (capture.bitsPerSample : Int) = bitsPerSample)
    {completions : List (List (Option (List UInt8)))}
    (hwhole : ∀ pkt, some pkt ∈ completions.flatten → c.stride ∣ pkt.length)
    (hfed : Capture.delivered completions.flatten = (p'.drains sizes).2.drop p.ring.used)
    -- read
    {limit : Nat} (hlimit : frames ≤ limit) {destinationChannels : Int} (hdest : 0 < destinationChannels) :
    (readInputChannels (c.receives completions) limit destinationChannels frames).2 =
      some ((List.range destinationChannels.toNat).map fun ch => some ((List.range frames.toNat).map fun f =>
        if ch = 2 * outputPair.toNat then (quantise o.formatBits (left f)).toInt
        else if ch = 2 * outputPair.toNat + 1 then (quantise o.formatBits (right f)).toInt
        else 0)) := by
  obtain ⟨ho, hdevice, hpair, hformatBytes, hformatBits⟩ := accepted_of_start hstart
  have hstride : p.stride = o.deviceChannels * o.formatBytes := by
    rw [Playback.stride, hplayback, StreamFormat.frameStride, hdevice]
    congr 1
    omega
  rw [submitQuantum_eq ho hused hstride] at hsubmit
  have hlen : (o.encode quantise left right frames.toNat).length = frames.toNat * p.stride := by
    rw [encode_length ho.pair, hstride]
  obtain ⟨hpos, hmax, hfit, hring⟩ := Playback.submitQuantum_contents hused hlen hsubmit
  have hpublished : p'.ring.contents = p.ring.contents ++ o.encode quantise left right frames.toNat := by
    rw [hring, Ring.contents_push hfit]
  have hused' : p'.ring.used ≤ p'.ring.size.bytes := by
    rw [← Ring.contents_length, hpublished, List.length_append, Ring.contents_length, hring]
    exact hfit
  rw [Playback.drains_all hused' hdrained, hpublished, List.drop_left' (Ring.contents_length _)] at hfed
  obtain ⟨hcontents, hsize', hformat, hactive'⟩ := Capture.receives_contents hwhole (by
    rw [hempty, hfed, hsize, Nat.zero_add]
    omega)
  have hnothing : c.ring.contents = [] := List.eq_nil_of_length_eq_zero (by rw [Ring.contents_length, hempty])
  rw [hnothing, List.nil_append, hfed] at hcontents
  have hframes : ((frames.toNat : Nat) : Int) = frames := by omega
  have hread : (readInputChannels (c.receives completions) limit destinationChannels frames.toNat).2 = _ :=
    readInputChannels_encode ho (by omega) (by omega) (hactive'.trans hactive)
    (by rw [hformat, hcapture, hchannels, hdevice]) (by rw [hformat, hcapture]; omega) (by rw [hformat, hcapture]; omega)
    hcontents (by rw [← Ring.contents_length, hcontents, hsize', hsize]; omega) (by omega) hdest
  rw [hframes] at hread
  rw [hread]
  have hvalue : ∀ ch f, (o.channelValue quantise (left f) (right f) ch).toInt =
      if ch = 2 * outputPair.toNat then (quantise o.formatBits (left f)).toInt
      else if ch = 2 * outputPair.toNat + 1 then (quantise o.formatBits (right f)).toInt else 0 := by
    intro ch f
    rw [channelValue, hpair, Nat.mul_comm]
    split
    · rfl
    split
    · rfl
    exact BitVec.toInt_zero
  simp only [recovered, hvalue]

/-- Two frames of 24-bit samples in 4-byte subslots on the second pair of a four-channel device. Both rings have their
cursors right before the end, so the first frame is split in each, and a byte is left from before. -/
theorem pcm_round_trip_wrapped :
    let z : RingSize 64 := .smallest
    let f : StreamFormat := { bitsPerSample := 24, bytesPerSample := 4, channels := 4 }
    let o : DirectUsbOutput := { formatBits := 24, formatBytes := 4, deviceChannels := 4, outputPair := 1 }
    let p : Playback 64 := { ring := { Ring.assign z with head := 4091, tail := 4090 }, format := f }
    let c : Capture 64 := { ring := { Ring.assign z with head := 4090, tail := 4090 }, format := f, captureActive := true }
    let quantise : (bits : Nat) → Int → BitVec bits := fun bits x => BitVec.ofInt bits x
    let p' := (o.submitQuantum quantise p true 0 (fun i => -5 - i) (fun i => 7 + i) 2 true).1
    (readInputChannels (c.receives [[some (((p'.drains [20, 20]).2.drop 1))]]) 64 5 2).2 =
      some [some [0, 0], some [0, 0], some [-5, -6], some [7, 8], some [0, 0]] := by
  intro z f o p c quantise p'
  have hstart : start 48000 24 4 4 1 f f = some o := by
    rw [start, if_neg (by decide), if_neg (by decide)]
    rfl
  have hsubmit : o.submitQuantum quantise p true 0 (fun i => -5 - i) (fun i => 7 + i) 2 true = (p', true) :=
    Prod.ext rfl (by decide)
  have hdrained : p'.ring.used ≤ [20, 20].sum := by decide
  have hempty : c.ring.used = 0 := by decide
  have hwhole : ∀ pkt, some pkt ∈ [[some ((p'.drains [20, 20]).2.drop 1)]].flatten → c.stride ∣ pkt.length := by
    intro pkt hpkt
    have hbytes : pkt = (p'.drains [20, 20]).2.drop 1 := by simpa using hpkt
    rw [hbytes]
    decide
  have hfed : Capture.delivered [[some ((p'.drains [20, 20]).2.drop 1)]].flatten =
      (p'.drains [20, 20]).2.drop p.ring.used := by decide
  have hlimit : (2 : Int) ≤ (64 : Nat) := by decide
  have hdest : (0 : Int) < 5 := by decide
  have hread := pcm_round_trip hstart (by decide) rfl rfl hsubmit hdrained hempty rfl rfl rfl rfl rfl rfl hwhole hfed
    hlimit hdest
  exact hread.trans (by decide)

end DirectUsbOutput

end UacDriver

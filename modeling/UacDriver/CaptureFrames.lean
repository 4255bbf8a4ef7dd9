import UacDriver.CaptureFifo

/-!
# Whole frames in the capture ring

The packet loop rounds the free bytes down to whole frames but not the packet itself, so a packet whose
`actual_length` is no multiple of the stride is published with a fraction of a frame at its end, unless the
ring is short of room. `WholeFramePacket` is the condition under which the loop keeps whole frames. In every
session whose packets meet it, every cursor stays on a frame boundary and every frame read is a frame of one
received packet.
-/

namespace UacDriver

open Circular Cursor Runs

/-- `frame` is one of the stride-aligned frames of a received packet. -/
def FrameOf (packets : List (List UInt8 × Nat)) (stride : Nat) (frame : List UInt8) : Prop :=
  ∃ k ∈ packets, ∃ j < k.1.length / stride, frame = (k.1.drop (j * stride)).take stride

instance (packets : List (List UInt8 × Nat)) (stride : Nat) (frame : List UInt8) :
    Decidable (FrameOf packets stride frame) :=
  inferInstanceAs (Decidable (∃ k ∈ packets, ∃ j < k.1.length / stride, frame = (k.1.drop (j * stride)).take stride))

/-- Every frame of `bytes`, cut at multiples of the stride, is a frame of a received packet. -/
def FramesOf (packets : List (List UInt8 × Nat)) (stride : Nat) (bytes : List UInt8) : Prop :=
  ∀ j < bytes.length / stride, FrameOf packets stride ((bytes.drop (j * stride)).take stride)

instance (packets : List (List UInt8 × Nat)) (stride : Nat) (bytes : List UInt8) :
    Decidable (FramesOf packets stride bytes) :=
  inferInstanceAs (Decidable (∀ j < bytes.length / stride, FrameOf packets stride ((bytes.drop (j * stride)).take stride)))

theorem FramesOf.mono {packets packets' : List (List UInt8 × Nat)} (hsub : packets ⊆ packets') {stride : Nat}
    {bytes : List UInt8} (h : FramesOf packets stride bytes) : FramesOf packets' stride bytes := by
  intro j hj
  obtain ⟨k, hk, i, hi, he⟩ := h j hj
  exact ⟨k, hsub hk, i, hi, he⟩

def KeptWhole (stride : Nat) (packets : List (List UInt8 × Nat)) : Prop :=
  ∀ k ∈ packets, stride ∣ k.2 ∧ k.2 ≤ k.1.length

/-- A stretch of one frame at a frame boundary of the accepted stream is a frame of one packet. -/
theorem frameOf_accepted {stride : Nat} (hs : 0 < stride) {packets : List (List UInt8 × Nat)}
    (h : KeptWhole stride packets) {q : Nat}
    (hq : (q + 1) * stride ≤ (packets.flatMap fun k => k.1.take k.2).length) :
    FrameOf packets stride (((packets.flatMap fun k => k.1.take k.2).drop (q * stride)).take stride) := by
  induction packets generalizing q with
  | nil =>
    rw [Nat.succ_mul] at hq
    simp at hq; omega
  | cons k ks ih =>
    obtain ⟨⟨m, hm⟩, hle⟩ := h k List.mem_cons_self
    rw [Nat.mul_comm] at hm
    have hlen : (k.1.take k.2).length = m * stride := by rw [List.length_take, Nat.min_eq_left hle, hm]
    rw [List.flatMap_cons] at hq ⊢
    rcases Nat.lt_or_ge q m with hqm | hqm
    · -- inside the first packet
      have hin : (q + 1) * stride ≤ m * stride := Nat.mul_le_mul_right _ hqm
      rw [Nat.succ_mul] at hin
      refine ⟨k, List.mem_cons_self, q, ?_, ?_⟩
      · exact (Nat.le_div_iff_mul_le hs).2 (by rw [Nat.succ_mul]; omega)
      · rw [List.drop_append_of_le_length (by omega), List.take_append_of_le_length (by rw [List.length_drop]; omega),
          List.drop_take, List.take_take, Nat.min_eq_left (by omega)]
    · obtain ⟨r, rfl⟩ := Nat.exists_eq_add_of_le hqm
      have hlen' : ((k.1.take k.2) ++ ks.flatMap fun k => k.1.take k.2).length =
          m * stride + (ks.flatMap fun k => k.1.take k.2).length := by rw [List.length_append, hlen]
      rw [hlen', show (m + r + 1) * stride = m * stride + (r + 1) * stride by ring] at hq
      obtain ⟨k', hk', i, hi, he⟩ := ih (fun k' hk' => h k' (List.mem_cons_of_mem _ hk')) (q := r) (by omega)
      refine ⟨k', List.mem_cons_of_mem _ hk', i, hi, ?_⟩
      rw [Nat.add_mul, ← List.drop_drop, ← hlen, List.drop_append_length, he]

/-! ### Sessions whose packets are whole frames -/

namespace CaptureRun

variable {w : Nat}

/-- The condition: a packet that is received holds whole frames, or the free bytes, rounded down to whole
frames, do not exceed it. -/
def WholeFramePacket (s : CaptureRun w) : CaptureAct → Prop
  | .packet => ∀ g bytes rest, s.loop = some ⟨g, some bytes :: rest⟩ →
      s.cap.stride ∣ bytes.length ∨
      (s.cap.ring.size.bytes - dist g.head g.tail) - (s.cap.ring.size.bytes - dist g.head g.tail) % s.cap.stride ≤
        bytes.length
  | _ => True

theorem keepCount_dvd {c : Capture w} {g : CaptureProgress w} {n : Nat}
    (h : c.stride ∣ n ∨
      (c.ring.size.bytes - dist g.head g.tail) - (c.ring.size.bytes - dist g.head g.tail) % c.stride ≤ n) :
    c.stride ∣ c.keepCount g n := by
  have hfree : c.stride ∣
      (c.ring.size.bytes - dist g.head g.tail) - (c.ring.size.bytes - dist g.head g.tail) % c.stride :=
    Nat.dvd_sub_mod _
  unfold Capture.keepCount
  rcases h with h | h
  · rcases Nat.le_total n
      ((c.ring.size.bytes - dist g.head g.tail) - (c.ring.size.bytes - dist g.head g.tail) % c.stride) with hle | hle
    · simp only [Nat.min_eq_left hle]; exact h
    · simp only [Nat.min_eq_right hle]; exact hfree
  · simp only [Nat.min_eq_right h]; exact hfree

structure Aligned (s : CaptureRun w) : Prop where
  kept : KeptWhole s.cap.stride s.packets
  head : s.cap.stride ∣ s.headPos
  tail : s.cap.stride ∣ s.tailPos
  region : s.region.frames = 0 ∨ s.region.frameStride = s.cap.stride ∧ s.cap.stride ∣ s.regionPos
  delivered : ∀ e ∈ s.fates, e.1 = .delivered → FramesOf s.packets s.cap.stride e.2

theorem step_stride (s : CaptureRun w) (a : CaptureAct) : (s.step a).cap.stride = s.cap.stride := by
  cases a with
  | beginLoop x => simp only [step]; split <;> rfl
  | packet =>
    rcases hl : s.loop with _ | ⟨g, _ | ⟨_ | bytes, rest⟩⟩ <;> simp only [step, hl] <;> rfl
  | publish => rcases hl : s.loop with _ | ⟨g, _ | ⟨pkt, rest⟩⟩ <;> (simp only [step, hl]; try rfl)
  | prepare limit frames => simp only [step, Capture.prepareCaptureRead]; split <;> rfl
  | commit => simp only [step, Capture.commitCaptureRead]; split <;> rfl
  | discard maxFrames => rfl
  | live keepFrames => rfl
  | deactivate => rfl

theorem accepted_dvd {stride : Nat} {s : CaptureRun w} (h : KeptWhole stride s.packets) :
    stride ∣ s.accepted.length := by
  unfold accepted
  generalize s.packets = packets at h
  induction packets with
  | nil => simp
  | cons k ks ih =>
    obtain ⟨hd, hle⟩ := h k List.mem_cons_self
    rw [List.flatMap_cons, List.length_append, List.length_take, Nat.min_eq_left hle]
    exact Nat.dvd_add hd (ih fun k' hk' => h k' (List.mem_cons_of_mem _ hk'))

theorem Aligned.regionBytes {s : CaptureRun w} (ha : s.Aligned) (h : s.Inv) :
    FramesOf s.packets s.cap.stride (s.cap.regionBytes s.region) := by
  rw [h.regionBytes_eq]
  intro j hj
  have hs : 0 < s.cap.stride := by
    refine Nat.pos_of_ne_zero fun h0 => ?_
    simp [h0] at hj
  have hjle := (Nat.le_div_iff_mul_le hs).1 hj
  rw [List.length_take, List.length_drop] at hjle
  rcases ha.region with h0 | ⟨hst, q, hq⟩
  · rw [regionLength, h0] at hjle
    rw [Nat.succ_mul] at hjle; omega
  · have hpos : s.regionPos + j * s.cap.stride = (q + j) * s.cap.stride := by rw [hq]; ring
    have hfr := frameOf_accepted hs ha.kept (q := q + j) (by
      show (q + j + 1) * s.cap.stride ≤ s.accepted.length
      rw [Nat.succ_mul, ← hpos]; rw [Nat.succ_mul] at hjle; omega)
    rw [List.drop_take, List.take_take, List.drop_drop, hpos, Nat.min_eq_left (by rw [Nat.succ_mul] at hjle; omega)]
    exact hfr

theorem Aligned.readCursor_dvd {s : CaptureRun w} (ha : s.Aligned) (h : s.Inv) (limit : Nat) :
    s.cap.stride ∣ dist s.cap.ring.head (s.cap.readCursor limit) := by
  unfold Capture.readCursor
  split
  · rename_i hlt
    have h₁ := h.used_le
    have h₂ := s.cap.ring.size.lt
    rw [Cursor.dist_sub_right _ (by omega)]
    exact Nat.dvd_mul_left ..
  · show s.cap.stride ∣ s.cap.ring.used
    rw [h.used_eq]
    exact Nat.dvd_sub ha.head ha.tail

theorem Aligned.packet {s : CaptureRun w} (ha : s.Aligned) (hc : s.WholeFramePacket .packet) :
    (s.step .packet).Aligned := by
  rcases hl : s.loop with _ | ⟨g, _ | ⟨pkt, rest⟩⟩
  · simpa only [step, hl] using ha
  · simpa only [step, hl] using ha
  · cases pkt with
    | none =>
      have hstep : s.step .packet = { s with
          cap := { s.cap with capturePacketDrops := s.cap.capturePacketDrops + 1 }, loop := some ⟨g, rest⟩ } := by
        simp [step, hl, Capture.acceptPacket]
      rw [hstep]
      exact ⟨ha.kept, ha.head, ha.tail, ha.region, ha.delivered⟩
    | some bytes =>
      have hkeep := keepCount_dvd (hc g bytes rest hl)
      have hpk : (s.step .packet).packets = s.packets ++ [(bytes, s.cap.keepCount g bytes.length)] := by
        simp only [step, hl]; rfl
      refine ⟨?_, ?_, ?_, ?_, ?_⟩ <;> rw [step_stride]
      · intro k hk
        rw [hpk] at hk
        rcases List.mem_append.1 hk with hk | hk
        · exact ha.kept k hk
        · rw [List.mem_singleton.1 hk]
          exact ⟨hkeep, Nat.min_le_left ..⟩
      · simp only [step, hl]; exact ha.head
      · simp only [step, hl]; exact ha.tail
      · simp only [step, hl]; exact ha.region
      · intro e he hf
        rw [hpk]
        simp only [step, hl] at he
        exact (ha.delivered e he hf).mono (List.subset_append_left ..)

theorem Aligned.commit {s : CaptureRun w} (ha : s.Aligned) (h : s.Inv) : (s.step .commit).Aligned := by
  by_cases hne : s.region.frames = 0 ∨ s.region.frameStride = 0
  · simp only [step, if_pos hne]
    exact ⟨ha.kept, ha.head, ha.tail, .inl rfl, ha.delivered⟩
  · have hbytes := ha.regionBytes h
    have hstride := s.step_stride .commit
    rcases ha.region with h0 | ⟨hst, hd⟩
    · exact absurd (.inl h0) hne
    · refine ⟨?_, ?_, ?_, ?_, ?_⟩ <;> rw [hstride] <;> simp only [step, if_neg hne]
      · exact ha.kept
      · exact ha.head
      · exact Nat.dvd_add hd (by rw [regionLength, hst]; exact Nat.dvd_mul_left ..)
      · exact .inl trivial
      · intro e he hf
        rcases List.mem_append.1 he with he | he
        · rcases List.mem_append.1 he with he | he
          · exact ha.delivered e he hf
          · rw [List.mem_singleton.1 he] at hf; cases hf
        · rw [List.mem_singleton.1 he]; exact hbytes

theorem Aligned.skip {s : CaptureRun w} (ha : s.Aligned) {c : Capture w} (hc : c.stride = s.cap.stride) {f : Fate}
    (hf : f ≠ .delivered) (n : Nat) :
    Aligned { s with cap := c, region := {}, tailPos := s.tailPos + n * s.cap.stride,
                     fates := s.fates ++ s.fate f (n * s.cap.stride) } := by
  refine ⟨?_, ?_, ?_, .inl rfl, ?_⟩ <;> simp only [hc]
  · exact ha.kept
  · exact ha.head
  · exact Nat.dvd_add ha.tail (Nat.dvd_mul_left ..)
  · intro e he hf'
    rcases List.mem_append.1 he with he | he
    · exact ha.delivered e he hf'
    · rw [List.mem_singleton.1 he] at hf'; exact absurd hf' hf

theorem Aligned.prepare {s : CaptureRun w} (ha : s.Aligned) (h : s.Inv) (limit : Nat) (frames : Int) :
    (s.step (.prepare limit frames)).Aligned := by
  have hd := ha.readCursor_dvd h limit
  refine ⟨?_, ?_, ?_, ?_, ?_⟩ <;> rw [step_stride]
  · exact ha.kept
  · exact ha.head
  · exact ha.tail
  · simp only [step, Capture.prepareCaptureRead]
    split
    · exact .inl rfl
    · exact .inr ⟨rfl, Nat.dvd_sub ha.head hd⟩
  · exact ha.delivered

theorem Aligned.step {s : CaptureRun w} (ha : s.Aligned) (h : s.Inv) (a : CaptureAct)
    (hc : s.WholeFramePacket a) : (s.step a).Aligned := by
  cases a with
  | beginLoop x =>
    simp only [CaptureRun.step]
    split
    · exact ⟨ha.kept, ha.head, ha.tail, ha.region, ha.delivered⟩
    · exact ha
  | packet => exact ha.packet hc
  | publish =>
    rcases hl : s.loop with _ | ⟨g, _ | ⟨pkt, rest⟩⟩ <;> simp only [CaptureRun.step, hl]
    · exact ha
    · exact ⟨ha.kept, accepted_dvd ha.kept, ha.tail, ha.region, ha.delivered⟩
    · exact ha
  | prepare limit frames => exact ha.prepare h limit frames
  | commit => exact ha.commit h
  | discard maxFrames => exact ha.skip (c := (s.cap.discardCaptureFrames maxFrames).1) (f := .discarded) rfl (by decide) _
  | live keepFrames => exact ha.skip (c := (s.cap.beginCaptureLive keepFrames).1) (f := .handover) rfl (by decide) _
  | deactivate => exact ⟨ha.kept, ha.head, ha.tail, ha.region, ha.delivered⟩

theorem Aligned.start (c : Capture w) (z : RingSize w) : Aligned { cap := { c with ring := Ring.assign z } } :=
  ⟨nofun, Nat.dvd_zero _, Nat.dvd_zero _, .inl rfl, nofun⟩

end CaptureRun

/-- In every session whose received packets hold whole frames, or meet a ring with no more room than they
fill, the unread bytes are whole frames and every frame exposed or delivered is a frame of one packet. -/
theorem capture_publishes_whole_frames {w : Nat} (c : Capture w) (z : RingSize w) (as : List CaptureAct)
    (has : Meets CaptureRun.step CaptureRun.WholeFramePacket { cap := { c with ring := Ring.assign z } } as) :
    let s := CaptureRun.session c z as
    c.stride ∣ s.cap.ring.used ∧ FramesOf s.packets c.stride (s.cap.regionBytes s.region) ∧
    ∀ e ∈ s.fates, e.1 = .delivered → FramesOf s.packets c.stride e.2 := by
  have hinv := has.invariant (I := fun s => s.Inv ∧ s.Aligned ∧ s.cap.stride = c.stride)
    (fun s a hc hs => ⟨hs.1.step a, hs.2.1.step hs.1 a hc, (s.step_stride a).trans hs.2.2⟩)
    ⟨.start c z, .start c z, rfl⟩
  intro s
  obtain ⟨h, ha, hstride⟩ : s.Inv ∧ s.Aligned ∧ s.cap.stride = c.stride := hinv
  refine ⟨?_, ?_, ?_⟩
  · rw [← hstride, h.used_eq]
    exact Nat.dvd_sub ha.head ha.tail
  · rw [← hstride]; exact ha.regionBytes h
  · rw [← hstride]; exact ha.delivered

/-- A completion of two packets, four-byte frames: eight bytes, then four. -/
theorem capture_publishes_whole_frames_two_packets :
    ∃ c : Capture 64, ∃ z : RingSize 64, ∃ x : Transfer,
      let s := CaptureRun.session c z [.beginLoop x, .packet, .packet, .publish, .prepare 100 3, .commit]
      s.accepted = [1, 2, 3, 4, 5, 6, 7, 8, 11, 12, 13, 14] ∧ c.stride ∣ s.cap.ring.used ∧
      ∀ e ∈ s.fates, e.1 = .delivered → FramesOf s.packets c.stride e.2 := by
  let c : Capture 64 :=
    { ring := Ring.assign ⟨4096, ⟨12, rfl⟩, by decide⟩, format := { channels := 2, bytesPerSample := 2 },
      captureActive := true }
  let z : RingSize 64 := .smallest
  let x : Transfer :=
    { buffer := fun i => UInt8.ofNat (i + 1), bufferBytes := 20,
      packets := [{ length := 10, actualLength := 8 }, { length := 10, actualLength := 4 }] }
  have h := capture_publishes_whole_frames c z [.beginLoop x, .packet, .packet, .publish, .prepare 100 3, .commit]
    ⟨trivial, fun g bytes rest hl => .inl (by cases hl; decide), fun g bytes rest hl => .inl (by cases hl; decide),
      trivial, trivial, trivial, trivial⟩
  exact ⟨c, z, x, by decide, h.1, h.2.2⟩

/-- Six bytes in the first packet: the ring holds ten bytes of four-byte frames, and the second frame read is
the end of one packet with the beginning of the next. -/
theorem odd_capture_packet_shifts_frames :
    ∃ c : Capture 64, ∃ z : RingSize 64, ∃ x : Transfer,
      let s := CaptureRun.session c z [.beginLoop x, .packet, .packet, .publish, .prepare 100 2]
      ¬ c.stride ∣ s.cap.ring.used ∧ s.cap.regionBytes s.region = [1, 2, 3, 4, 5, 6, 11, 12] ∧
      ¬ FramesOf s.packets c.stride (s.cap.regionBytes s.region) := by
  let c : Capture 64 :=
    { ring := Ring.assign ⟨4096, ⟨12, rfl⟩, by decide⟩, format := { channels := 2, bytesPerSample := 2 },
      captureActive := true }
  let z : RingSize 64 := .smallest
  let x : Transfer :=
    { buffer := fun i => UInt8.ofNat (i + 1), bufferBytes := 20,
      packets := [{ length := 10, actualLength := 6 }, { length := 10, actualLength := 4 }] }
  exact ⟨c, z, x, by decide, by decide, by decide⟩

end UacDriver

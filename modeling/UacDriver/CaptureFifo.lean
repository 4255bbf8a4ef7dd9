import UacDriver.Capture
import UacDriver.Lib.Runs

/-!
# The capture ring is a bounded queue with drop-oldest reads

The packet loop of `onCapture` and the single consumer run in any order: a completion is split into the
cursor loads, one step for each packet and the publication; a read is split into its prepare and its commit.
A prepare, a discard or the live handover ends an outstanding read without committing it, as the callers do:
`commitCaptureRead` only ever follows its own `prepareCaptureRead`.

History variables count every cursor without wrap and record what was accepted and what became of it:
`fates` lists, in order, each stretch of bytes the tail passed over and why. Everything rests on one chain of
positions: tail loaded by the producer ≤ tail ≤ region ≤ region end ≤ published head ≤ private head ≤ loaded
tail + size.
-/

namespace UacDriver

open Circular Cursor Runs

inductive Fate where
  | delivered
  /-- The newest-window trim of a read, published by its commit. -/
  | trimmed
  | discarded
  | handover
  deriving DecidableEq

/-- A completion in the packet loop: the loop's locals and the packets still to do. -/
structure CaptureLoop (w : Nat) where
  progress : CaptureProgress w
  rest : List (Option (List UInt8))

structure CaptureRun (w : Nat) where
  cap : Capture w
  loop : Option (CaptureLoop w) := none
  region : CaptureReadRegion w := {}
  /-- Packets received, each with the number of its bytes that were kept. -/
  packets : List (List UInt8 × Nat) := []
  headPos : Nat := 0
  tailPos : Nat := 0
  /-- The tail as the running completion loaded it. -/
  loadedPos : Nat := 0
  regionPos : Nat := 0
  fates : List (Fate × List UInt8) := []

inductive CaptureAct where
  /-- A completion enters the packet loop: active, not cancelled, no stop request. -/
  | beginLoop (x : Transfer)
  | packet
  | publish
  | prepare (limit : Nat) (frames : Int)
  | commit
  | discard (maxFrames : Int)
  | live (keepFrames : Int)
  /-- `requestStop` or `markTransportFailed`. -/
  | deactivate

namespace CaptureRun

variable {w : Nat}

def accepted (s : CaptureRun w) : List UInt8 := s.packets.flatMap fun k => k.1.take k.2

def regionLength (s : CaptureRun w) : Nat := s.region.frames * s.region.frameStride

/-- `n` bytes from the tail on, with their fate. -/
def fate (s : CaptureRun w) (f : Fate) (n : Nat) : List (Fate × List UInt8) := [(f, (s.accepted.drop s.tailPos).take n)]

def step (s : CaptureRun w) : CaptureAct → CaptureRun w
  | .beginLoop x =>
    if s.cap.captureActive ∧ x.status ≠ .cancelled ∧ x.status ≠ .noDevice ∧ s.loop.isNone then
      { s with loop := some ⟨s.cap.begin_, x.received s.cap.stride⟩, loadedPos := s.tailPos }
    else s
  | .packet => match s.loop with
    | some ⟨g, pkt :: rest⟩ =>
      { s with
        cap := (s.cap.acceptPacket g pkt).1
        loop := some ⟨(s.cap.acceptPacket g pkt).2, rest⟩
        packets := s.packets ++ (pkt.map fun bytes => (bytes, s.cap.keepCount g bytes.length)).toList }
    | _ => s
  | .publish => match s.loop with
    | some ⟨g, []⟩ => { s with cap := s.cap.publish g, loop := none, headPos := s.accepted.length }
    | _ => s
  | .prepare limit frames =>
    { s with
      cap := (s.cap.prepareCaptureRead limit frames).1
      region := (s.cap.prepareCaptureRead limit frames).2
      regionPos := s.headPos - dist s.cap.ring.head (s.cap.prepareCaptureRead limit frames).2.consumerCursor }
  | .commit =>
    if s.region.frames = 0 ∨ s.region.frameStride = 0 then { s with region := {} }
    else
      { s with
        cap := s.cap.commitCaptureRead s.region
        region := {}
        tailPos := s.regionPos + s.regionLength
        fates := s.fates ++ s.fate .trimmed (s.regionPos - s.tailPos) ++ [(.delivered, s.cap.regionBytes s.region)] }
  | .discard maxFrames =>
    { s with
      cap := (s.cap.discardCaptureFrames maxFrames).1
      region := {}
      tailPos := s.tailPos + s.cap.discardCount maxFrames * s.cap.stride
      fates := s.fates ++ s.fate .discarded (s.cap.discardCount maxFrames * s.cap.stride) }
  | .live keepFrames =>
    { s with
      cap := (s.cap.beginCaptureLive keepFrames).1
      region := {}
      tailPos := s.tailPos + s.cap.liveDiscard keepFrames * s.cap.stride
      fates := s.fates ++ s.fate .handover (s.cap.liveDiscard keepFrames * s.cap.stride) }
  | .deactivate => { s with cap := { s.cap with captureActive := false } }

/-! ### The invariant -/

/-- The private head of the running completion, the published one without a completion. -/
structure LoopOk (s : CaptureRun w) : Prop where
  idle : s.loop = none → s.headPos = s.accepted.length
  head : ∀ l, s.loop = some l → l.progress.head = BitVec.ofNat w s.accepted.length
  tail : ∀ l, s.loop = some l → l.progress.tail = BitVec.ofNat w s.loadedPos

/-- An outstanding region lies between tail and published head, split at the ring's end. -/
structure RegionOk (s : CaptureRun w) : Prop where
  cursor : s.region.consumerCursor = BitVec.ofNat w s.regionPos
  first : s.region.first = s.regionPos % s.cap.ring.size.bytes
  firstBytes : s.region.firstBytes = min s.regionLength (s.cap.ring.size.bytes - s.regionPos % s.cap.ring.size.bytes)
  secondBytes : s.region.secondBytes = s.regionLength - s.region.firstBytes
  tail_le : s.tailPos ≤ s.regionPos
  le_head : s.regionPos + s.regionLength ≤ s.headPos

structure Inv (s : CaptureRun w) : Prop where
  head_eq : s.cap.ring.head = BitVec.ofNat w s.headPos
  tail_eq : s.cap.ring.tail = BitVec.ofNat w s.tailPos
  loaded_le : s.loadedPos ≤ s.tailPos
  tail_le : s.tailPos ≤ s.headPos
  head_le : s.headPos ≤ s.accepted.length
  room : s.accepted.length ≤ s.loadedPos + s.cap.ring.size.bytes
  loop : s.LoopOk
  region : s.region = {} ∨ s.RegionOk
  cells : window s.cap.ring.data s.cap.ring.size.bytes s.tailPos (s.accepted.length - s.tailPos) =
    s.accepted.drop s.tailPos
  fates : s.fates.flatMap Prod.snd = s.accepted.take s.tailPos

namespace Inv

variable {s : CaptureRun w}

theorem used_eq (h : s.Inv) : s.cap.ring.used = s.headPos - s.tailPos := by
  have h₁ := h.tail_le
  have h₂ := h.head_le
  have h₃ := h.room
  have h₄ := h.loaded_le
  have hlt := s.cap.ring.size.lt
  rw [Ring.used, h.head_eq, h.tail_eq]
  exact dist_ofNat h₁ (by omega)

theorem used_le (h : s.Inv) : s.cap.ring.used ≤ s.cap.ring.size.bytes := by
  have h₁ := h.head_le
  have h₂ := h.room
  have h₃ := h.loaded_le
  rw [h.used_eq]; omega

theorem window_eq (h : s.Inv) {pos n : Nat} (h₁ : s.tailPos ≤ pos) (h₂ : pos + n ≤ s.accepted.length) :
    window s.cap.ring.data s.cap.ring.size.bytes pos n = (s.accepted.drop pos).take n := by
  obtain ⟨a, rfl⟩ := Nat.exists_eq_add_of_le h₁
  rw [← take_drop_window (m := s.accepted.length - s.tailPos) _ (by omega), h.cells, List.drop_drop]

/-- A prepared region exposes one stretch of the accepted stream. -/
theorem regionBytes_eq (h : s.Inv) :
    s.cap.regionBytes s.region = (s.accepted.drop s.regionPos).take s.regionLength := by
  rcases h.region with hr | hr
  · simp [Capture.regionBytes, regionLength, hr]
  · have h₁ := hr.le_head
    have h₂ := h.head_le
    have h₃ := h.room
    have h₄ := h.loaded_le
    have h₅ := hr.tail_le
    rw [← h.window_eq hr.tail_le (h₁.trans h₂), window_eq_spans _ _ s.cap.ring.size.pos (by omega),
      Capture.regionBytes, hr.secondBytes, hr.firstBytes, hr.first]

/-! ### The consumer's steps -/

theorem advance (h : s.Inv) {c : Capture w} {n : Nat} {extra : List (Fate × List UInt8)}
    (hring : c.ring = { s.cap.ring with tail := BitVec.ofNat w (s.tailPos + n) })
    (hn : s.tailPos + n ≤ s.headPos) (hextra : extra.flatMap Prod.snd = (s.accepted.drop s.tailPos).take n) :
    Inv { s with cap := c, region := {}, tailPos := s.tailPos + n, fates := s.fates ++ extra } := by
  have hle := h.head_le
  refine ⟨?_, ?_, ?_, hn, h.head_le, ?_, ⟨h.loop.idle, h.loop.head, h.loop.tail⟩, .inl rfl, ?_, ?_⟩
  · rw [hring]; exact h.head_eq
  · rw [hring]
  · exact h.loaded_le.trans (Nat.le_add_right ..)
  · rw [hring]; exact h.room
  · show window c.ring.data c.ring.size.bytes (s.tailPos + n) (s.accepted.length - (s.tailPos + n)) =
      s.accepted.drop (s.tailPos + n)
    rw [hring, h.window_eq (Nat.le_add_right ..) (by omega), List.take_of_length_le (by simp)]
  · show (s.fates ++ extra).flatMap Prod.snd = s.accepted.take (s.tailPos + n)
    rw [List.flatMap_append, h.fates, hextra, List.take_add]

theorem skip (h : s.Inv) {c : Capture w} {n : Nat} (f : Fate) (hring : c.ring = s.cap.ring.advanceTail n)
    (hn : n ≤ s.cap.ring.used) :
    Inv { s with cap := c, region := {}, tailPos := s.tailPos + n, fates := s.fates ++ s.fate f n } := by
  have hu := h.used_eq
  have hle := h.tail_le
  refine h.advance ?_ (by omega) (by simp [fate])
  rw [hring, Ring.advanceTail, h.tail_eq, ← BitVec.ofNat_add]

theorem commit (h : s.Inv) : (s.step .commit).Inv := by
  simp only [step]
  split
  · exact ⟨h.head_eq, h.tail_eq, h.loaded_le, h.tail_le, h.head_le, h.room,
      ⟨h.loop.idle, h.loop.head, h.loop.tail⟩, .inl rfl, h.cells, h.fates⟩
  · rename_i hne
    rcases h.region with hr | hr
    · exact absurd (.inl (by rw [hr])) hne
    · obtain ⟨a, ha⟩ := Nat.exists_eq_add_of_le hr.tail_le
      have hpos : s.regionPos + s.regionLength = s.tailPos + (a + s.regionLength) := by omega
      have hbytes := h.regionBytes_eq
      rw [hpos, List.append_assoc]
      refine h.advance ?_ (by have := hr.le_head; omega) ?_
      · rw [Capture.commitCaptureRead, if_neg hne]
        show { s.cap.ring with tail := s.region.consumerCursor + BitVec.ofNat w s.regionLength } = _
        rw [hr.cursor, ← BitVec.ofNat_add, hpos]
      · -- the trimmed stretch, then the region
        simp only [fate, List.flatMap_append, List.flatMap_cons, List.flatMap_nil, List.append_nil, hbytes]
        rw [List.take_add, List.drop_drop, ← ha, show s.regionPos - s.tailPos = a by omega]

theorem discard (h : s.Inv) (maxFrames : Int) : (s.step (.discard maxFrames)).Inv := by
  refine h.skip .discarded rfl ?_
  unfold Capture.discardCount
  split
  · simp
  · exact (Nat.mul_le_mul_right _ (Nat.min_le_left ..)).trans (Nat.div_mul_le_self ..)

theorem live (h : s.Inv) (keepFrames : Int) : (s.step (.live keepFrames)).Inv := by
  refine h.skip .handover ?_ ?_
  · simp only [Capture.beginCaptureLive]
    split
    · rfl
    · rename_i h0
      simp [Nat.eq_zero_of_not_pos h0, Ring.advanceTail]
  · unfold Capture.liveDiscard
    split
    · simp
    · exact (Nat.mul_le_mul_right _ (Nat.sub_le ..)).trans (Nat.div_mul_le_self ..)

theorem readCursor (h : s.Inv) (limit : Nat) :
    s.cap.readCursor limit = BitVec.ofNat w (s.headPos - dist s.cap.ring.head (s.cap.readCursor limit)) ∧
    dist s.cap.ring.head (s.cap.readCursor limit) ≤ s.cap.ring.used := by
  have hu := h.used_eq
  have hle := h.tail_le
  unfold Capture.readCursor
  split
  · rename_i hlt
    have hlt' : limit * s.cap.stride < 2 ^ w := by
      have := h.used_le; have := s.cap.ring.size.lt; omega
    have hd : dist s.cap.ring.head (s.cap.ring.head - BitVec.ofNat w (limit * s.cap.stride)) =
        limit * s.cap.stride := Cursor.dist_sub_right _ hlt'
    rw [hd]
    refine ⟨?_, hlt.le⟩
    rw [h.head_eq]
    have hsum : s.headPos = s.headPos - limit * s.cap.stride + limit * s.cap.stride := by omega
    conv_lhs => rw [hsum, BitVec.ofNat_add, BitVec.add_sub_cancel]
  · refine ⟨?_, le_rfl⟩
    show s.cap.ring.tail = BitVec.ofNat w (s.headPos - s.cap.ring.used)
    rw [h.tail_eq, hu, Nat.sub_sub_self hle]

theorem prepare (h : s.Inv) (limit : Nat) (frames : Int) : (s.step (.prepare limit frames)).Inv := by
  have hring : (s.cap.prepareCaptureRead limit frames).1.ring = s.cap.ring := by
    unfold Capture.prepareCaptureRead; split <;> rfl
  refine ⟨?_, ?_, h.loaded_le, h.tail_le, h.head_le, ?_, ⟨h.loop.idle, h.loop.head, h.loop.tail⟩, ?_, ?_, h.fates⟩
  · simp only [step, hring]; exact h.head_eq
  · simp only [step, hring]; exact h.tail_eq
  · simp only [step, hring]; exact h.room
  · obtain ⟨hcur, hdist⟩ := h.readCursor limit
    have hu := h.used_eq
    have hle := h.tail_le
    by_cases hg : !s.cap.captureActive ∨ frames ≤ 0 ∨ s.cap.stride = 0
    · exact .inl (by simp only [step, Capture.prepareCaptureRead, if_pos hg])
    · -- the region is at the read cursor and covers whole frames below the head
      have hbytes : min (dist s.cap.ring.head (s.cap.readCursor limit) / s.cap.stride) frames.toNat * s.cap.stride ≤
          dist s.cap.ring.head (s.cap.readCursor limit) :=
        (Nat.mul_le_mul_right _ (Nat.min_le_left ..)).trans (Nat.div_mul_le_self ..)
      have hoff : s.cap.ring.offset (s.cap.readCursor limit) =
          (s.headPos - dist s.cap.ring.head (s.cap.readCursor limit)) % s.cap.ring.size.bytes := by
        conv_lhs => rw [Ring.offset_eq, hcur]
        exact toNat_ofNat_mod s.cap.ring.size.dvd_word _
      refine .inr ⟨?_, ?_, ?_, ?_, ?_, ?_⟩ <;> simp only [step, regionLength, Capture.prepareCaptureRead, if_neg hg]
      exacts [hcur, hoff, by rw [hoff], by omega, by omega]
  · simp only [step, hring]; exact h.cells

/-! ### The producer's steps -/

/-- The producer never touches an outstanding region: it only moves the published head on. -/
theorem keepRegion (h : s.Inv) {s' : CaptureRun w} (hregion : s'.region = s.region) (hpos : s'.regionPos = s.regionPos)
    (htail : s'.tailPos = s.tailPos) (hsize : s'.cap.ring.size = s.cap.ring.size) (hhead : s.headPos ≤ s'.headPos) :
    s'.region = {} ∨ s'.RegionOk := by
  rcases h.region with hr | hr
  · exact .inl (hregion.trans hr)
  · have hlen : s'.regionLength = s.regionLength := by rw [regionLength, hregion, regionLength]
    refine .inr ⟨?_, ?_, ?_, ?_, ?_, ?_⟩
    · rw [hregion, hpos]; exact hr.cursor
    · rw [hregion, hpos, hsize]; exact hr.first
    · rw [hregion, hpos, hsize, hlen]; exact hr.firstBytes
    · rw [hregion, hlen]; exact hr.secondBytes
    · rw [htail, hpos]; exact hr.tail_le
    · rw [hpos, hlen]; exact hr.le_head.trans hhead

theorem beginLoop (h : s.Inv) (x : Transfer) : (s.step (.beginLoop x)).Inv := by
  simp only [step]
  split
  · rename_i hg
    have hhead := h.loop.idle (Option.isNone_iff_eq_none.1 hg.2.2.2)
    have hroom := h.room
    have hle := h.loaded_le
    refine ⟨h.head_eq, h.tail_eq, le_rfl, h.tail_le, h.head_le, ?_, ⟨nofun, ?_, ?_⟩,
      h.keepRegion rfl rfl rfl rfl le_rfl, h.cells, h.fates⟩
    · show s.accepted.length ≤ s.tailPos + s.cap.ring.size.bytes
      omega
    · rintro l hl
      cases hl
      show s.cap.ring.head = BitVec.ofNat w s.accepted.length
      rw [h.head_eq, hhead]
    · rintro l hl
      cases hl
      exact h.tail_eq
  · exact h

/-- A kept packet fits the bytes that were free when the completion loaded the tail. -/
theorem keepCount_le (h : s.Inv) {l : CaptureLoop w} (hl : s.loop = some l) (n : Nat) :
    s.accepted.length + s.cap.keepCount l.progress n ≤ s.loadedPos + s.cap.ring.size.bytes := by
  have h₁ := h.loaded_le
  have h₂ := h.tail_le
  have h₃ := h.head_le
  have h₄ := h.room
  have hlt := s.cap.ring.size.lt
  have hd : dist l.progress.head l.progress.tail = s.accepted.length - s.loadedPos := by
    rw [h.loop.head l hl, h.loop.tail l hl]
    exact dist_ofNat (by omega) (by omega)
  unfold Capture.keepCount
  simp only [hd]
  omega

theorem packet_some (h : s.Inv) {g : CaptureProgress w} {bytes : List UInt8} {rest : List (Option (List UInt8))}
    (hl : s.loop = some ⟨g, some bytes :: rest⟩) : (s.step .packet).Inv := by
  have hkeep := h.keepCount_le hl bytes.length
  have hle : s.cap.keepCount g bytes.length ≤ bytes.length := Nat.min_le_left ..
  have hhead := h.loop.head _ hl
  have htail := h.loop.tail _ hl
  have h₁ := h.loaded_le
  have h₂ := h.tail_le
  have h₃ := h.head_le
  simp only at hkeep hhead htail
  generalize hk : s.cap.keepCount g bytes.length = keep at *
  have hlen : (bytes.take keep).length = keep := by simp [hle]
  have hstep : s.step .packet =
      { s with cap := (s.cap.acceptPacket g (some bytes)).1
               loop := some ⟨(s.cap.acceptPacket g (some bytes)).2, rest⟩
               packets := s.packets ++ [(bytes, keep)] } := by
    simp only [step, hl]; rw [← hk]; rfl
  have hacc : (s.step .packet).accepted = s.accepted ++ bytes.take keep := by
    rw [hstep]; simp [accepted]
  have hring : (s.cap.acceptPacket g (some bytes)).1.ring = s.cap.ring.writeAt g.head (bytes.take keep) := by
    simp only [Capture.acceptPacket, hk]
  have hg : g.head.toNat % s.cap.ring.size.bytes = s.accepted.length % s.cap.ring.size.bytes := by
    rw [hhead]; exact toNat_ofNat_mod s.cap.ring.size.dvd_word _
  have hregion : (s.step .packet).region = {} ∨ (s.step .packet).RegionOk := by
    rw [hstep]
    exact h.keepRegion rfl rfl rfl (by simp only [hring]; rfl) le_rfl
  rw [hstep] at hacc hregion ⊢
  refine ⟨?_, ?_, h.loaded_le, h.tail_le, ?_, ?_, ⟨nofun, ?_, ?_⟩, ?_, ?_, ?_⟩ <;>
    simp only [hacc, hring, List.length_append, hlen]
  · exact h.head_eq
  · exact h.tail_eq
  · omega
  · exact hkeep
  · rintro l hl'
    cases hl'
    show g.head + BitVec.ofNat w (s.cap.keepCount g bytes.length) = _
    rw [hk, hhead, ← BitVec.ofNat_add]
  · rintro l hl'
    cases hl'
    exact htail
  · exact hregion
  · -- the old bytes are left alone, the new ones lie behind them
    show window (s.cap.ring.writeAt g.head (bytes.take keep)).data s.cap.ring.size.bytes s.tailPos
      (s.accepted.length + keep - s.tailPos) = _
    rw [show s.accepted.length + keep - s.tailPos = s.accepted.length - s.tailPos + keep by omega, window_add,
      Ring.window_writeAt_of_le _ hg (by omega) (by rw [hlen]; omega), h.cells,
      show s.tailPos + (s.accepted.length - s.tailPos) = s.accepted.length by omega,
      ← window_congr_pos hg, List.drop_append_of_le_length (by omega)]
    have hself := s.cap.ring.window_writeAt_self g.head (show (bytes.take keep).length ≤ s.cap.ring.size.bytes by omega)
    rw [hlen] at hself
    rw [hself]
  · show s.fates.flatMap Prod.snd = (s.accepted ++ bytes.take keep).take s.tailPos
    rw [h.fates, List.take_append_of_le_length (by omega)]

theorem packet (h : s.Inv) : (s.step .packet).Inv := by
  rcases hl : s.loop with _ | ⟨g, rest⟩
  · simpa only [step, hl] using h
  · match rest, hl with
    | [], hl => simpa only [step, hl] using h
    | some bytes :: rest, hl => exact h.packet_some hl
    | none :: rest, hl =>
      have hstep : s.step .packet = { s with
          cap := { s.cap with capturePacketDrops := s.cap.capturePacketDrops + 1 }, loop := some ⟨g, rest⟩ } := by
        simp [step, hl, Capture.acceptPacket]
      rw [hstep]
      refine ⟨h.head_eq, h.tail_eq, h.loaded_le, h.tail_le, h.head_le, h.room, ⟨nofun, ?_, ?_⟩,
        h.keepRegion rfl rfl rfl rfl le_rfl, h.cells, h.fates⟩
      · rintro l hl'; cases hl'; exact h.loop.head ⟨g, none :: rest⟩ hl
      · rintro l hl'; cases hl'; exact h.loop.tail ⟨g, none :: rest⟩ hl

theorem publish (h : s.Inv) : (s.step .publish).Inv := by
  rcases hl : s.loop with _ | ⟨g, rest⟩
  · simpa only [step, hl] using h
  · match rest, hl with
    | _ :: _, hl => simpa only [step, hl] using h
    | [], hl =>
      have hle := h.head_le
      have hstep : s.step .publish = { s with cap := s.cap.publish g, loop := none, headPos := s.accepted.length } := by
        simp only [step, hl]
      rw [hstep]
      exact ⟨h.loop.head _ hl, h.tail_eq, h.loaded_le, h.tail_le.trans hle, le_rfl, h.room,
        ⟨fun _ => rfl, nofun, nofun⟩, h.keepRegion rfl rfl rfl rfl hle, h.cells, h.fates⟩

theorem step (h : s.Inv) (a : CaptureAct) : (s.step a).Inv := by
  cases a with
  | beginLoop x => exact h.beginLoop x
  | packet => exact h.packet
  | publish => exact h.publish
  | prepare limit frames => exact h.prepare limit frames
  | commit => exact h.commit
  | discard maxFrames => exact h.discard maxFrames
  | live keepFrames => exact h.live keepFrames
  | deactivate =>
    exact ⟨h.head_eq, h.tail_eq, h.loaded_le, h.tail_le, h.head_le, h.room,
      ⟨h.loop.idle, h.loop.head, h.loop.tail⟩, h.keepRegion rfl rfl rfl rfl le_rfl, h.cells, h.fates⟩

theorem start (c : Capture w) (z : RingSize w) : Inv { cap := { c with ring := Ring.assign z } } := by
  refine ⟨?_, ?_, le_rfl, le_rfl, le_rfl, ?_, ⟨fun _ => rfl, nofun, nofun⟩, .inl rfl, rfl, rfl⟩
  · simp [Ring.assign]
  · simp [Ring.assign]
  · simp [accepted]

end Inv

/-! ### Whole runs -/

def session (c : Capture w) (z : RingSize w) (as : List CaptureAct) : CaptureRun w :=
  run step { cap := { c with ring := Ring.assign z } } as

theorem Inv.session (c : Capture w) (z : RingSize w) (as : List CaptureAct) : (session c z as).Inv :=
  run_invariant (fun _ a h => h.step a) (.start c z) as

theorem run_packets {s : CaptureRun w} {g : CaptureProgress w} {pkts : List (Option (List UInt8))}
    (hl : s.loop = some ⟨g, pkts⟩) :
    let r := pkts.foldl (fun st pkt => st.1.acceptPacket st.2 pkt) (s.cap, g)
    (run step s (List.replicate pkts.length .packet)).cap = r.1 ∧
    (run step s (List.replicate pkts.length .packet)).loop = some ⟨r.2, []⟩ := by
  induction pkts generalizing s g with
  | nil => exact ⟨rfl, hl⟩
  | cons pkt pkts ih =>
    have hstep : (s.step .packet).cap = (s.cap.acceptPacket g pkt).1 ∧
        (s.step .packet).loop = some ⟨(s.cap.acceptPacket g pkt).2, pkts⟩ := by
      simp only [step, hl]; exact ⟨trivial, trivial⟩
    have h := ih hstep.2
    rw [hstep.1] at h
    exact h

/-- A completion that no step of the consumer interrupts is `Capture.receive`. -/
theorem run_completion {s : CaptureRun w} {x : Transfer} (hactive : s.cap.captureActive)
    (hx : x.status ≠ .cancelled ∧ x.status ≠ .noDevice) (hl : s.loop = none) :
    (run step s (.beginLoop x :: (List.replicate (x.received s.cap.stride).length .packet ++ [.publish]))).cap =
      s.cap.receive (x.received s.cap.stride) := by
  have hbegin : s.step (.beginLoop x) =
      { s with loop := some ⟨s.cap.begin_, x.received s.cap.stride⟩, loadedPos := s.tailPos } := by
    simp [step, hactive, hx, hl]
  have hcap : (s.step (.beginLoop x)).cap = s.cap := by rw [hbegin]
  obtain ⟨h₁, h₂⟩ := run_packets (s := s.step (.beginLoop x)) (by rw [hbegin])
  rw [hcap] at h₁ h₂
  rw [run_cons, run_append, run_cons, run_nil]
  generalize run step (s.step (.beginLoop x)) (List.replicate (x.received s.cap.stride).length .packet) = t at h₁ h₂
  simp only [step, h₂, h₁, Capture.receive]

end CaptureRun

def CaptureAct.ofProducer : CaptureAct → Bool
  | beginLoop _ | packet | publish => true
  | _ => false

namespace CaptureRun

variable {w : Nat}

theorem step_ofProducer {s : CaptureRun w} {a : CaptureAct} (ha : a.ofProducer) :
    (s.step a).region = s.region ∧ (s.step a).regionPos = s.regionPos ∧ s.accepted <+: (s.step a).accepted := by
  cases a with
  | beginLoop x => simp only [step]; split <;> exact ⟨rfl, rfl, List.prefix_rfl⟩
  | packet =>
    rcases hl : s.loop with _ | ⟨g, _ | ⟨pkt, rest⟩⟩ <;> simp only [step, hl]
    · exact ⟨trivial, trivial, List.prefix_rfl⟩
    · exact ⟨trivial, trivial, List.prefix_rfl⟩
    · refine ⟨trivial, trivial, ?_⟩
      simp only [accepted, List.flatMap_append]
      exact List.prefix_append ..
  | publish =>
    rcases hl : s.loop with _ | ⟨g, _ | ⟨pkt, rest⟩⟩ <;> simp only [step, hl]
    · exact ⟨trivial, trivial, List.prefix_rfl⟩
    · exact ⟨trivial, trivial, List.prefix_rfl⟩
    · exact ⟨trivial, trivial, List.prefix_rfl⟩
  | prepare _ _ => cases ha
  | commit => cases ha
  | discard _ => cases ha
  | live _ => cases ha
  | deactivate => cases ha

theorem run_ofProducer {bs : List CaptureAct} (hbs : ∀ a ∈ bs, a.ofProducer) (s : CaptureRun w) :
    (run step s bs).region = s.region ∧ (run step s bs).regionPos = s.regionPos ∧
    s.accepted <+: (run step s bs).accepted := by
  induction bs generalizing s with
  | nil => exact ⟨rfl, rfl, List.prefix_rfl⟩
  | cons a bs ih =>
    obtain ⟨h₁, h₂, h₃⟩ := step_ofProducer (s := s) (hbs a List.mem_cons_self)
    obtain ⟨h₄, h₅, h₆⟩ := ih (fun b hb => hbs b (List.mem_cons_of_mem _ hb)) (s.step a)
    exact ⟨h₄.trans h₁, h₅.trans h₂, h₃.trans h₆⟩

theorem Inv.regionBytes_run {s : CaptureRun w} (h : s.Inv) {bs : List CaptureAct} (hbs : ∀ a ∈ bs, a.ofProducer) :
    (run CaptureRun.step s bs).cap.regionBytes s.region = s.cap.regionBytes s.region := by
  obtain ⟨h₁, h₂, t, ht⟩ := run_ofProducer hbs s
  have h' : (run CaptureRun.step s bs).Inv := run_invariant (fun _ a h => h.step a) h bs
  have hbytes := h'.regionBytes_eq
  rw [h₁] at hbytes
  rw [hbytes, h.regionBytes_eq, h₂, regionLength, h₁, ← ht]
  rcases h.region with hr | hr
  · simp [regionLength, hr]
  · have hle : s.regionPos + s.region.frames * s.region.frameStride ≤ s.accepted.length :=
      hr.le_head.trans h.head_le
    rw [List.drop_append_of_le_length (by omega), List.take_append_of_le_length (by simp; omega)]
    rfl

end CaptureRun

/-- The capture ring over every session: the unread bytes never exceed the ring; a prepared region is one
stretch of the accepted stream and stays so through whatever the event thread does before its commit; and
the stretches the tail has passed over, delivered, trimmed, discarded or dropped at the handover, are in
order and without gap or overlap the beginning of the accepted stream. A discard, the handover or a new
prepare ends an outstanding read. -/
theorem capture_ring_refines_queue {w : Nat} (c : Capture w) (z : RingSize w) (as : List CaptureAct) :
    let s := CaptureRun.session c z as
    s.cap.ring.used ≤ s.cap.ring.size.bytes ∧
    s.cap.regionBytes s.region = (s.accepted.drop s.regionPos).take s.regionLength ∧
    (∀ bs : List CaptureAct, (∀ a ∈ bs, a.ofProducer) →
      (run CaptureRun.step s bs).cap.regionBytes s.region = s.cap.regionBytes s.region) ∧
    s.fates.flatMap Prod.snd = s.accepted.take s.tailPos ∧
    s.accepted.length - s.tailPos ≤ s.cap.ring.size.bytes := by
  intro s
  have h : s.Inv := .session c z as
  have h₁ := h.room
  have h₂ := h.loaded_le
  exact ⟨h.used_le, h.regionBytes_eq, fun bs hbs => h.regionBytes_run hbs, h.fates, by omega⟩

end UacDriver

import UacDriver.Playback
import UacDriver.Lib.Runs

/-!
# The playback ring is a FIFO

One producer runs prepare / fill / commit (or abandons what it prepared), one consumer drains, in any
order. `PlaybackRun` adds to the playback state the producer's local region and two history variables, the
bytes committed and the bytes drained so far. `PlaybackRun.Inv` is kept by every step: the unread bytes are
exactly what was committed and not drained, they never exceed the ring, and an outstanding region lies in
the free bytes behind the head however far drains have moved the tail since it was prepared.
-/

namespace UacDriver

open Circular Cursor Runs

structure PlaybackRun (w : Nat) where
  pb : Playback w
  region : PlaybackWriteRegion w := {}
  committed : List UInt8 := []
  drained : List UInt8 := []

/-- One step of either client; `policy` is a change of the admission terms by the control thread. -/
inductive PlaybackAct where
  | prepare (frames : Int)
  | fillFirst (at_ : Nat) (xs : List UInt8)
  | fillSecond (at_ : Nat) (xs : List UInt8)
  | commit
  | abandon
  | drain (bytes : Nat)
  | policy (started : Bool) (target prime headroom : Nat)

namespace PlaybackRun

variable {w : Nat}

def regionBytes (s : PlaybackRun w) : List UInt8 :=
  copyOut s.pb.ring.data s.region.first s.region.firstBytes ++ copyOut s.pb.ring.data 0 s.region.secondBytes

/-- A physical offset that filling the region may write. -/
def RegionCell (s : PlaybackRun w) (i : Nat) : Prop :=
  (s.region.first ≤ i ∧ i < s.region.first + s.region.firstBytes) ∨ i < s.region.secondBytes

/-- A physical offset that holds a committed byte not yet drained. -/
def UnreadCell (s : PlaybackRun w) (i : Nat) : Prop :=
  ∃ j < s.pb.ring.used, i = s.pb.ring.offset (s.pb.ring.tail + BitVec.ofNat w j)

def step (s : PlaybackRun w) : PlaybackAct → PlaybackRun w
  | .prepare frames =>
    { s with pb := (s.pb.preparePlaybackWrite frames).1, region := (s.pb.preparePlaybackWrite frames).2 }
  | .fillFirst o xs =>
    if o + xs.length ≤ s.region.firstBytes then { s with pb := s.pb.store (s.region.first + o) xs } else s
  | .fillSecond o xs =>
    if o + xs.length ≤ s.region.secondBytes then { s with pb := s.pb.store o xs } else s
  | .commit =>
    { s with pb := s.pb.commitPlaybackWrite s.region, committed := s.committed ++ s.regionBytes, region := {} }
  | .abandon => { s with region := {} }
  | .drain bytes =>
    { s with pb := (s.pb.drainRing bytes).1, drained := s.drained ++ (s.pb.drainRing bytes).2 }
  | .policy started target prime headroom =>
    { s with pb := { s.pb with
        playbackStarted := started, playbackTargetFrames := target, startupPrimeFrames := prime,
        writeHeadroomFrames := headroom } }

structure Inv (s : PlaybackRun w) : Prop where
  used_le : s.pb.ring.used ≤ s.pb.ring.size.bytes
  region : s.region = {} ∨ s.region.Fits s.pb
  fifo : s.committed = s.drained ++ s.pb.ring.contents

theorem regionBytes_of_empty {s : PlaybackRun w} (h : s.region = {}) : s.regionBytes = [] := by
  simp [regionBytes, h]

theorem regionBytes_of_fits {s : PlaybackRun w} (h : s.region.Fits s.pb) :
    s.regionBytes = window s.pb.ring.data s.pb.ring.size.bytes s.pb.ring.head.toNat
      (s.region.frames * s.region.frameStride) := by
  have hfit := h.fit
  rw [window_eq_spans _ _ s.pb.ring.size.pos (by omega), regionBytes, h.secondBytes, h.firstBytes, h.first]

theorem RegionCell.free {s : PlaybackRun w} (h : s.region.Fits s.pb) {i : Nat} (hi : s.RegionCell i) :
    ∃ j < s.region.frames * s.region.frameStride,
      i = (s.pb.ring.head.toNat + j) % s.pb.ring.size.bytes := by
  have hfit := h.fit
  rcases hi with ⟨h₁, h₂⟩ | hi
  · rw [h.first] at h₁
    rw [h.first, h.firstBytes] at h₂
    exact span_first_cells s.pb.ring.size.pos h₁ h₂
  · rw [h.secondBytes, h.firstBytes] at hi
    exact span_second_cells s.pb.ring.size.pos (by omega) hi

theorem Inv.regionCell_not_unread {s : PlaybackRun w} (h : s.Inv) {i : Nat} (hi : s.RegionCell i) :
    ¬ s.UnreadCell i := by
  rintro ⟨k, hk, he⟩
  rcases h.region with hr | hr
  · simp [RegionCell, hr] at hi
  · obtain ⟨j, hj, rfl⟩ := hi.free hr
    rw [Ring.offset_eq, toNat_add_mod s.pb.ring.size.dvd_word] at he
    exact Ring.free_cell_ne hr.fit hj hk he

/-! ### The steps -/

theorem Inv.prepare {s : PlaybackRun w} (h : s.Inv) (frames : Int) : (s.step (.prepare frames)).Inv := by
  refine ⟨?_, ?_, ?_⟩
  · simpa [step] using h.used_le
  · rcases Playback.preparePlaybackWrite_region h.used_le frames with hr | ⟨hr, -⟩
    · exact .inl hr
    · refine .inr ⟨?_, ?_, ?_, ?_, hr.secondBytes, ?_⟩ <;> simp only [step, Playback.preparePlaybackWrite_ring,
        Playback.preparePlaybackWrite_stride]
      exacts [hr.cursor, hr.stride, hr.first, hr.firstBytes, hr.fit]
  · simpa [step] using h.fifo

theorem Inv.store {s : PlaybackRun w} (h : s.Inv) {off : Nat} {xs : List UInt8}
    (hcell : ∀ i, off ≤ i → i < off + xs.length → s.RegionCell i) :
    Inv { s with pb := s.pb.store off xs } := by
  refine ⟨h.used_le, ?_, ?_⟩
  · rcases h.region with hr | hr
    · exact .inl hr
    · exact .inr ⟨hr.cursor, hr.stride, hr.first, hr.firstBytes, hr.secondBytes, hr.fit⟩
  · show s.committed = s.drained ++ ({ s.pb.ring with data := blit s.pb.ring.data off xs } : Ring w).contents
    rcases h.region with hr | hr
    · -- no region: nothing can be stored
      have hnil : xs = [] := by
        refine List.eq_nil_of_length_eq_zero (Nat.eq_zero_of_not_pos fun hpos => ?_)
        have := hcell off le_rfl (by omega)
        simp [RegionCell, hr] at this
      rw [hnil, blit_nil]; exact h.fifo
    · rw [Ring.contents_blit hr.fit fun i h₁ h₂ => (hcell i h₁ h₂).free hr]
      exact h.fifo

theorem Inv.commit {s : PlaybackRun w} (h : s.Inv) : (s.step .commit).Inv := by
  rcases h.region with hr | hr
  · have hp : s.pb.commitPlaybackWrite s.region = s.pb := by simp [Playback.commitPlaybackWrite, hr]
    refine ⟨?_, .inl rfl, ?_⟩ <;> simp only [step, hp]
    · exact h.used_le
    · rw [regionBytes_of_empty hr, List.append_nil]; exact h.fifo
  · have hring : (s.pb.commitPlaybackWrite s.region).ring =
        s.pb.ring.advanceHead (s.region.frames * s.region.frameStride) := by
      unfold Playback.commitPlaybackWrite
      split
      · rename_i h0
        have hz : s.region.frames * s.region.frameStride = 0 := Nat.mul_eq_zero.2 h0
        simp [hz, Ring.advanceHead]
      · simp [Ring.advanceHead, hr.cursor]
    refine ⟨?_, .inl rfl, ?_⟩ <;> simp only [step, hring]
    · rw [Ring.used_advanceHead hr.fit]; exact hr.fit
    · rw [regionBytes_of_fits hr, Ring.contents_advanceHead hr.fit, h.fifo, List.append_assoc]

theorem Inv.drain {s : PlaybackRun w} (h : s.Inv) (bytes : Nat) : (s.step (.drain bytes)).Inv := by
  have hle := h.used_le
  refine ⟨?_, ?_, ?_⟩
  · simp only [step, Playback.drainRing_used, Playback.drainRing_size]; omega
  · rcases h.region with hr | hr
    · exact .inl hr
    · -- a drain only moves the tail: the region keeps its place behind the head
      have hhead : (s.pb.drainRing bytes).1.ring.head = s.pb.ring.head := by
        rw [Playback.drainRing_ring]; rfl
      have hfit := hr.fit
      refine .inr ⟨?_, hr.stride, ?_, ?_, hr.secondBytes, ?_⟩ <;>
        simp only [step, hhead, Playback.drainRing_size, Playback.drainRing_used]
      exacts [hr.cursor, hr.first, hr.firstBytes, by omega]
  · simp only [step, List.append_assoc, Playback.drainRing_contents bytes hle]
    exact h.fifo

theorem Inv.step {s : PlaybackRun w} (h : s.Inv) (a : PlaybackAct) : (s.step a).Inv := by
  cases a with
  | prepare frames => exact h.prepare frames
  | fillFirst o xs =>
    simp only [PlaybackRun.step]
    split
    · exact h.store fun i h₁ h₂ => .inl ⟨by omega, by omega⟩
    · exact h
  | fillSecond o xs =>
    simp only [PlaybackRun.step]
    split
    · exact h.store fun i h₁ h₂ => .inr (by omega)
    · exact h
  | commit => exact h.commit
  | abandon => exact ⟨h.used_le, .inl rfl, h.fifo⟩
  | drain bytes => exact h.drain bytes
  | policy started target prime headroom =>
    refine ⟨h.used_le, ?_, h.fifo⟩
    rcases h.region with hr | hr
    · exact .inl hr
    · exact .inr ⟨hr.cursor, hr.stride, hr.first, hr.firstBytes, hr.secondBytes, hr.fit⟩

theorem Inv.start {p : Playback w} {z : RingSize w} (hp : p.ring = Ring.assign z) : Inv { pb := p } := by
  refine ⟨?_, .inl rfl, ?_⟩
  · show p.ring.used ≤ _
    rw [hp]; simp [Ring.used, Ring.assign]
  · simp [hp]

/-! ### Whole frames -/

def WholeFrameDrains (stride : Nat) (as : List PlaybackAct) : Prop :=
  ∀ bytes, PlaybackAct.drain bytes ∈ as → stride ∣ bytes

@[simp] theorem step_stride (s : PlaybackRun w) (a : PlaybackAct) : (s.step a).pb.stride = s.pb.stride := by
  cases a <;> simp only [step] <;> try rfl
  · exact Playback.preparePlaybackWrite_stride _
  · split <;> rfl
  · split <;> rfl
  · simp only [Playback.commitPlaybackWrite]; split <;> rfl

@[simp] theorem step_size (s : PlaybackRun w) (a : PlaybackAct) : (s.step a).pb.ring.size = s.pb.ring.size := by
  cases a <;> simp only [step] <;> try rfl
  · rw [Playback.preparePlaybackWrite_ring]
  · split <;> rfl
  · split <;> rfl
  · simp only [Playback.commitPlaybackWrite]; split <;> rfl
  · exact Playback.drainRing_size _

theorem Inv.step_aligned {s : PlaybackRun w} (h : s.Inv) (a : PlaybackAct)
    (ha : ∀ bytes, a = .drain bytes → s.pb.stride ∣ bytes) (hd : s.pb.stride ∣ s.pb.ring.used) :
    s.pb.stride ∣ (s.step a).pb.ring.used := by
  have hsame : (s.step a).committed = s.committed → (s.step a).drained = s.drained →
      (s.step a).pb.ring.used = s.pb.ring.used := by
    intro hc hdr
    have e := (h.step a).fifo
    rw [hc, hdr, h.fifo] at e
    simpa using (congrArg List.length (List.append_cancel_left e)).symm
  cases a with
  | commit =>
    have e := congrArg List.length h.commit.fifo
    have e₀ := congrArg List.length h.fifo
    simp only [PlaybackRun.step, List.length_append, Ring.contents_length] at e e₀
    have hlen : s.pb.stride ∣ s.regionBytes.length := by
      rcases h.region with hr | hr
      · simp [regionBytes_of_empty hr]
      · rw [regionBytes_of_fits hr, window_length, hr.stride]; exact Nat.dvd_mul_left ..
    have : (s.step .commit).pb.ring.used = s.pb.ring.used + s.regionBytes.length := by
      simp only [PlaybackRun.step]; omega
    rw [this]; exact Nat.dvd_add hd hlen
  | drain bytes =>
    show s.pb.stride ∣ (s.pb.drainRing bytes).1.ring.used
    rw [Playback.drainRing_used]
    refine Nat.dvd_sub hd ?_
    unfold Playback.drainCount
    rcases Nat.le_total s.pb.ring.used bytes with hle | hle
    · rwa [Nat.min_eq_left hle]
    · rw [Nat.min_eq_right hle]; exact ha bytes rfl
  | prepare _ => rw [hsame rfl rfl]; exact hd
  | fillFirst _ _ =>
    rw [hsame (by simp only [PlaybackRun.step]; split <;> rfl) (by simp only [PlaybackRun.step]; split <;> rfl)]
    exact hd
  | fillSecond _ _ =>
    rw [hsame (by simp only [PlaybackRun.step]; split <;> rfl) (by simp only [PlaybackRun.step]; split <;> rfl)]
    exact hd
  | abandon => rw [hsame rfl rfl]; exact hd
  | policy _ _ _ _ => rw [hsame rfl rfl]; exact hd

theorem Inv.run_aligned {s : PlaybackRun w} (h : s.Inv) (hd : s.pb.stride ∣ s.pb.ring.used)
    {as : List PlaybackAct} (has : WholeFrameDrains s.pb.stride as) :
    s.pb.stride ∣ (run PlaybackRun.step s as).pb.ring.used := by
  induction as generalizing s with
  | nil => exact hd
  | cons a as ih =>
    have := ih (h.step a)
      (by rw [step_stride]; exact h.step_aligned a (fun b hb => has b (by simp [hb])) hd)
      (by rw [step_stride]; exact fun b hb => has b (by simp [hb]))
    rwa [step_stride] at this

theorem run_size (s : PlaybackRun w) (as : List PlaybackAct) :
    (run PlaybackRun.step s as).pb.ring.size = s.pb.ring.size :=
  run_invariant (I := fun s' => s'.pb.ring.size = s.pb.ring.size) (fun s' a h => (step_size s' a).trans h) rfl as

end PlaybackRun

theorem Playback.configureUserspaceBuffers_ring {w : Nat} {p p₀ : Playback w} {streaming : Bool}
    {c : UserspaceBufferConfig} (h : p.configureUserspaceBuffers streaming c = some p₀) :
    ∃ z : RingSize w, p₀.ring = Ring.assign z ∧ z.bytes = c.requestedCapacity := by
  unfold configureUserspaceBuffers at h
  split at h
  · cases h
  split at h
  · cases h
  obtain ⟨z, hz, rfl⟩ := Option.map_eq_some_iff.1 h
  exact ⟨z, rfl, RingSize.bytes_of_ofBytes? hz⟩

/-- The playback ring over every run of its two clients: what was drained is what was committed first, in
order, with the rest still unread; the unread bytes never exceed the ring and stay whole frames under
whole-frame drains; a prepared region never covers an unread byte. -/
theorem playback_ring_refines_fifo {w : Nat} (p p₀ : Playback w) (streaming : Bool) (c : UserspaceBufferConfig)
    (hcfg : p.configureUserspaceBuffers streaming c = some p₀) (as : List PlaybackAct) :
    let s := run PlaybackRun.step { pb := p₀ } as
    s.committed = s.drained ++ s.pb.ring.contents ∧ s.drained <+: s.committed ∧
    s.pb.ring.used ≤ c.requestedCapacity ∧
    (PlaybackRun.WholeFrameDrains p₀.stride as → p₀.stride ∣ s.pb.ring.used) ∧
    ∀ i, s.RegionCell i → ¬ s.UnreadCell i := by
  obtain ⟨z, hring, hz⟩ := Playback.configureUserspaceBuffers_ring hcfg
  intro s
  have h₀ : PlaybackRun.Inv { pb := p₀ } := .start hring
  have h : s.Inv := run_invariant (fun _ a hs => hs.step a) h₀ as
  have hsize : s.pb.ring.size.bytes = c.requestedCapacity := by
    rw [PlaybackRun.run_size, ← hz, hring]; rfl
  refine ⟨h.fifo, ⟨_, h.fifo.symm⟩, hsize ▸ h.used_le, fun has => ?_, fun i hi => h.regionCell_not_unread hi⟩
  refine h₀.run_aligned ?_ has
  show p₀.stride ∣ p₀.ring.used
  rw [hring]; simp [Ring.used, Ring.assign]

/-- A 4096-byte ring of 12-byte frames, the largest block prepared, filled, committed and drained in part. -/
theorem playback_ring_refines_fifo_4096 :
    ∃ p p₀ : Playback 64, p.configureUserspaceBuffers false { ringCapacityBytes := 4096 } = some p₀ ∧
      p₀.stride = 12 ∧
      (run PlaybackRun.step { pb := p₀ } [.prepare 2, .fillFirst 0 (List.replicate 24 7), .commit, .drain 12]).pb.ring.used = 12 ∧
      (run PlaybackRun.step { pb := p₀ }
        [.prepare 2, .fillFirst 0 (List.replicate 24 7), .commit, .drain 12]).drained <+:
      (run PlaybackRun.step { pb := p₀ }
        [.prepare 2, .fillFirst 0 (List.replicate 24 7), .commit, .drain 12]).committed := by
  let p : Playback 64 :=
    { ring := Ring.assign ⟨4096, ⟨12, rfl⟩, by decide⟩, format := { channels := 4, bytesPerSample := 3 } }
  have h : p.configureUserspaceBuffers false { ringCapacityBytes := 4096 } = some p := rfl
  exact ⟨p, p, h, rfl, by decide, (playback_ring_refines_fifo p p false _ h _).2.1⟩

end UacDriver

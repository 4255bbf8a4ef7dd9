import UacDriver.Ring
import UacDriver.Scheduling

/-!
# The playback side: ring, positions and credit

`Playback` groups the driver fields that the playback ring operations read and write: the ring with its
negotiated format, the admission policy, the position counters and the credit ledger. The operations are
those of the source, each on the whole record: `drainRing` (consumer, event thread), the two-phase write
`preparePlaybackWrite` / fill / `commitPlaybackWrite` (producer, render thread) and the ledger calls.
-/

namespace UacDriver

open Circular Cursor

/-- `PlaybackWriteRegion`; the second span always starts at the ring's first byte. -/
structure PlaybackWriteRegion (w : Nat) where
  first : Nat := 0
  firstBytes : Nat := 0
  secondBytes : Nat := 0
  producerCursor : BitVec w := 0
  frames : Nat := 0
  frameStride : Nat := 0

structure Playback (w : Nat) where
  ring : Ring w
  format : StreamFormat := {}
  playbackStarted : Bool := false
  playbackTargetFrames : Nat := 128
  startupPrimeFrames : Nat := 128
  writeHeadroomFrames : Nat := 64
  writtenFrames : Nat := 0
  playedFrames : Nat := 0
  queuedOutFrames : Nat := 0
  playbackCredit : Int := 0
  playbackCreditReserve : Nat := 0
  playbackOverruns : Nat := 0
  playbackUnderruns : Nat := 0
  playbackOverrunActive : Bool := false
  playbackUnderrunActive : Bool := false
  playbackShortPackets : Nat := 0
  playbackShortFrames : Nat := 0
  writesSinceDrain : Nat := 0
  maxWritesBetweenDrains : Nat := 0

namespace Playback

variable {w : Nat} (p : Playback w)

def stride : Nat := p.format.frameStride

def bufferedFrames : Nat := if p.stride = 0 then 0 else p.ring.used / p.stride

def drainCount (bytes : Nat) : Nat := min p.ring.used bytes

/-- `drainRing`: the state after it and the bytes copied to `dst`. -/
def drainRing (bytes : Nat) : Playback w × List UInt8 :=
  let n := p.drainCount bytes
  ({ p with
      ring := if 0 < n then p.ring.advanceTail n else p.ring
      writesSinceDrain := if 0 < n then 0 else p.writesSinceDrain
      -- a short drain counts one underrun per episode, and only once playback has started
      playbackUnderruns :=
        if n < bytes ∧ p.playbackStarted ∧ !p.playbackUnderrunActive then p.playbackUnderruns + 1
        else p.playbackUnderruns
      playbackUnderrunActive :=
        if n < bytes then p.playbackUnderrunActive || p.playbackStarted else false
      playbackShortPackets :=
        if n < bytes ∧ 0 < p.stride then p.playbackShortPackets + 1 else p.playbackShortPackets
      playbackShortFrames :=
        if n < bytes ∧ 0 < p.stride then p.playbackShortFrames + (bytes - n) / p.stride
        else p.playbackShortFrames
      playedFrames := if 0 < p.stride then p.playedFrames + n / p.stride else p.playedFrames },
    if 0 < n then p.ring.readAt p.ring.tail n else [])

/-- The frame limit of admission: prime before playback has started, target after. -/
def frameLimit : Nat :=
  (if p.playbackStarted then p.playbackTargetFrames else p.startupPrimeFrames) + p.writeHeadroomFrames

def admissible : Nat :=
  let queuedFrames := p.ring.used / p.stride
  let physicalFrames := (p.ring.size.bytes - p.ring.used) / p.stride
  let logicalFrames := if queuedFrames < p.frameLimit then p.frameLimit - queuedFrames else 0
  min physicalFrames logicalFrames

def writableFrames : Nat := if p.stride = 0 then 0 else p.admissible

def preparePlaybackWrite (requestedFrames : Int) : Playback w × PlaybackWriteRegion w :=
  if requestedFrames ≤ 0 ∨ p.stride = 0 then (p, {})
  else
    let requested := requestedFrames.toNat
    let admitted := min requested p.admissible
    let p' := { p with
      playbackOverruns :=
        if admitted < requested ∧ !p.playbackOverrunActive then p.playbackOverruns + 1 else p.playbackOverruns
      playbackOverrunActive := decide (admitted < requested) }
    if admitted = 0 then (p', {})
    else
      let bytes := admitted * p.stride
      let offset := p.ring.offset p.ring.head
      let first := min bytes (p.ring.size.bytes - offset)
      (p', { first := offset, firstBytes := first, secondBytes := bytes - first,
             producerCursor := p.ring.head, frames := admitted, frameStride := p.stride })

def commitPlaybackWrite (region : PlaybackWriteRegion w) : Playback w :=
  if region.frames = 0 ∨ region.frameStride = 0 then p
  else
    { p with
      ring := { p.ring with
        head := region.producerCursor + BitVec.ofNat w (region.frames * region.frameStride) }
      writtenFrames := p.writtenFrames + region.frames }

/-- Bytes stored into the ring storage at physical offset `off`, as filling a region does. -/
def store (off : Nat) (xs : List UInt8) : Playback w :=
  { p with ring := { p.ring with data := blit p.ring.data off xs } }

def fillRegion (region : PlaybackWriteRegion w) (data : List UInt8) : Playback w :=
  (p.store region.first (data.take region.firstBytes)).store 0
    ((data.drop region.firstBytes).take region.secondBytes)

/-- `writePcm`: prepare, fill both spans, commit. Returns the frames accepted. -/
def writePcm (data : List UInt8) (frames : Int) : Playback w × Nat :=
  if frames ≤ 0 then (p, 0)
  else
    let (p₁, region) := p.preparePlaybackWrite frames
    ((p₁.fillRegion region data).commitPlaybackWrite region, region.frames)

def chargePlaybackCredit (frames : Int) : Playback w :=
  if frames ≤ 0 then p
  else if !p.playbackStarted then p
  else { p with playbackCredit := p.playbackCredit - frames }

/-- The credit floor: target, live submitted runway and reserve, all negated. -/
def creditFloor : Int :=
  -(p.playbackTargetFrames : Int) - (p.queuedOutFrames : Int) - (p.playbackCreditReserve : Int)

def takePlaybackCredit (frames : Int) : Playback w × Bool :=
  if frames ≤ 0 then (p, true)
  else if !p.playbackStarted then (p, true)
  else if p.playbackCredit - frames ≥ p.creditFloor then
    ({ p with playbackCredit := p.playbackCredit - frames }, true)
  else (p, false)

/-- `subtractQueued(queuedOutFrames_, amount)`: saturates at zero. -/
def subtractQueued (amount : Nat) : Playback w := { p with queuedOutFrames := p.queuedOutFrames - amount }

/-- The playback half of `configureUserspaceBuffers`: refused while streaming or on a bad request. -/
def configureUserspaceBuffers (streaming : Bool) (c : UserspaceBufferConfig) : Option (Playback w) :=
  if streaming ∨ p.playbackStarted then none
  else if !c.accepted then none
  else (RingSize.ofBytes? w c.requestedCapacity).map fun z => { p with ring := Ring.assign z }

def noteQuantumWritten : Playback w :=
  let writes := p.writesSinceDrain + 1
  { p with writesSinceDrain := writes, maxWritesBetweenDrains := max p.maxWritesBetweenDrains writes }

/-! ### What one operation does to the ring -/

variable {p}

@[simp] theorem drainRing_stride (bytes : Nat) : (p.drainRing bytes).1.stride = p.stride := rfl

@[simp] theorem drainRing_size (bytes : Nat) : (p.drainRing bytes).1.ring.size = p.ring.size := by
  simp only [drainRing]; split <;> rfl

theorem drainCount_le_used (bytes : Nat) : p.drainCount bytes ≤ p.ring.used := Nat.min_le_left ..

theorem drainCount_le (bytes : Nat) : p.drainCount bytes ≤ bytes := Nat.min_le_right ..

theorem drainRing_ring (bytes : Nat) :
    (p.drainRing bytes).1.ring = p.ring.advanceTail (p.drainCount bytes) := by
  simp only [drainRing]
  split
  · rfl
  · rename_i h
    rw [Nat.eq_zero_of_not_pos h]
    simp [Ring.advanceTail]

theorem drainRing_bytes (bytes : Nat) :
    (p.drainRing bytes).2 = p.ring.readAt p.ring.tail (p.drainCount bytes) := by
  simp only [drainRing]
  split
  · rfl
  · rename_i h
    exact (List.eq_nil_of_length_eq_zero (by rw [Ring.readAt_length]; omega)).symm

@[simp] theorem drainRing_length (bytes : Nat) : (p.drainRing bytes).2.length = p.drainCount bytes := by
  rw [drainRing_bytes, Ring.readAt_length]

theorem drainRing_used (bytes : Nat) :
    (p.drainRing bytes).1.ring.used = p.ring.used - p.drainCount bytes := by
  rw [drainRing_ring, Ring.used_advanceTail (drainCount_le_used bytes)]

theorem drainRing_contents (bytes : Nat) (hused : p.ring.used ≤ p.ring.size.bytes) :
    (p.drainRing bytes).2 ++ (p.drainRing bytes).1.ring.contents = p.ring.contents := by
  rw [drainRing_bytes, drainRing_ring]
  exact Ring.readAt_tail_append_contents (drainCount_le_used bytes) hused

@[simp] theorem preparePlaybackWrite_ring (frames : Int) : (p.preparePlaybackWrite frames).1.ring = p.ring := by
  unfold preparePlaybackWrite; split
  · rfl
  · dsimp only; split <;> rfl

variable (p) in
/-- What the producer's calls leave alone: the format, the queued frames and the started flag. -/
def eventSide : StreamFormat × Nat × Bool := (p.format, p.queuedOutFrames, p.playbackStarted)

@[simp] theorem preparePlaybackWrite_eventSide (frames : Int) :
    (p.preparePlaybackWrite frames).1.eventSide = p.eventSide := by
  unfold preparePlaybackWrite; split
  · rfl
  · dsimp only; split <;> rfl

@[simp] theorem preparePlaybackWrite_stride (frames : Int) :
    (p.preparePlaybackWrite frames).1.stride = p.stride :=
  congrArg (fun e => e.1.frameStride) (preparePlaybackWrite_eventSide frames)

@[simp] theorem commitPlaybackWrite_eventSide (region : PlaybackWriteRegion w) :
    (p.commitPlaybackWrite region).eventSide = p.eventSide := by
  unfold commitPlaybackWrite; split <;> rfl

@[simp] theorem fillRegion_eventSide (region : PlaybackWriteRegion w) (data : List UInt8) :
    (p.fillRegion region data).eventSide = p.eventSide := rfl

@[simp] theorem writePcm_eventSide (data : List UInt8) (frames : Int) :
    (p.writePcm data frames).1.eventSide = p.eventSide := by
  unfold writePcm; split
  · rfl
  · simp

@[simp] theorem chargePlaybackCredit_eventSide (frames : Int) :
    (p.chargePlaybackCredit frames).eventSide = p.eventSide := by
  unfold chargePlaybackCredit; split
  · rfl
  · split <;> rfl

@[simp] theorem takePlaybackCredit_eventSide (frames : Int) :
    (p.takePlaybackCredit frames).1.eventSide = p.eventSide := by
  unfold takePlaybackCredit; split
  · rfl
  split
  · rfl
  split <;> rfl

theorem admissible_mul_le (hused : p.ring.used ≤ p.ring.size.bytes) :
    p.ring.used + p.admissible * p.stride ≤ p.ring.size.bytes := by
  have h : p.admissible * p.stride ≤ p.ring.size.bytes - p.ring.used :=
    (Nat.mul_le_mul_right _ (Nat.min_le_left _ _)).trans (Nat.div_mul_le_self _ _)
  omega

end Playback

/-- A region covers `frames` whole frames of the free bytes behind the head, split at the ring's end. -/
structure PlaybackWriteRegion.Fits {w : Nat} (region : PlaybackWriteRegion w) (p : Playback w) : Prop where
  cursor : region.producerCursor = p.ring.head
  stride : region.frameStride = p.stride
  first : region.first = p.ring.head.toNat % p.ring.size.bytes
  firstBytes : region.firstBytes =
    min (region.frames * region.frameStride) (p.ring.size.bytes - p.ring.head.toNat % p.ring.size.bytes)
  secondBytes : region.secondBytes = region.frames * region.frameStride - region.firstBytes
  fit : p.ring.used + region.frames * region.frameStride ≤ p.ring.size.bytes

/-- What `preparePlaybackWrite` returns: the empty region, or one that fits the free bytes. -/
theorem Playback.preparePlaybackWrite_region {w : Nat} {p : Playback w} (hused : p.ring.used ≤ p.ring.size.bytes)
    (frames : Int) :
    (p.preparePlaybackWrite frames).2 = {} ∨ (p.preparePlaybackWrite frames).2.Fits p ∧
      0 < (p.preparePlaybackWrite frames).2.frames ∧ (p.preparePlaybackWrite frames).2.frames ≤ frames.toNat := by
  unfold preparePlaybackWrite
  split
  · exact .inl rfl
  · dsimp only
    split
    · exact .inl rfl
    · rename_i hadm
      refine .inr ⟨⟨rfl, rfl, Ring.offset_eq _ _, ?_, rfl, ?_⟩, by dsimp only; omega, by dsimp only; omega⟩
      · simp only [Ring.offset_eq]
      · refine le_trans ?_ (admissible_mul_le hused)
        exact Nat.add_le_add_left (Nat.mul_le_mul_right _ (Nat.min_le_right _ _)) _

end UacDriver

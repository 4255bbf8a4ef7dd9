import UacDriver.Ring
import UacDriver.Transfer

/-!
# The capture side: ring, reads and the packet loop

`Capture` groups the driver fields of the capture ring. The producer is the packet loop of `onCapture`: it
loads `captureTail_` once, keeps a private head while it copies packets, and publishes the head at the end;
`CaptureProgress` is that loop's local state. The consumer is the render thread with its two-phase read and
the two ways of skipping, `discardCaptureFrames` and `beginCaptureLive`. The frame limit that a read trims to
is computed from other fields of the driver and is an argument here.
-/

namespace UacDriver

open Circular Cursor

/-- `CaptureReadRegion`; the second span always starts at the ring's first byte. -/
structure CaptureReadRegion (w : Nat) where
  first : Nat := 0
  firstBytes : Nat := 0
  secondBytes : Nat := 0
  consumerCursor : BitVec w := 0
  frames : Nat := 0
  frameStride : Nat := 0

structure Capture (w : Nat) where
  ring : Ring w
  format : StreamFormat := {}
  captureActive : Bool := false
  captureLive : Bool := false
  captureSequence : Nat := 0
  captureOverruns : Nat := 0
  captureUnderruns : Nat := 0
  capturePacketDrops : Nat := 0
  startupCaptureDiscardFrames : Nat := 0

/-- The locals of the packet loop: `head` runs ahead of `captureHead_`, `tail` is as first loaded. -/
structure CaptureProgress (w : Nat) where
  head : BitVec w
  tail : BitVec w
  totalFrames : Nat := 0

/-- The packets of a capture completion in order: the bytes received, nothing for a packet that is not
`packetOk`. The loop finds packet `i` where the lengths of the earlier descriptors end. -/
def Transfer.received (x : Transfer) (stride : Nat) : List (Option (List UInt8)) :=
  x.packets.zipIdx.map fun (k, i) =>
    if x.status = .completed ∧ k.status = .completed ∧ 0 < k.actualLength ∧ 0 < stride then
      some (copyOut x.buffer (x.isoPacketOffset i) k.actualLength)
    else none

namespace Capture

variable {w : Nat} (c : Capture w)

def stride : Nat := c.format.frameStride

/-! ### The packet loop of `onCapture` -/

def begin_ : CaptureProgress w := { head := c.ring.head, tail := c.ring.tail }

/-- `keep`: the packet's length, bounded by the free bytes rounded down to whole frames. -/
def keepCount (g : CaptureProgress w) (n : Nat) : Nat :=
  let free := c.ring.size.bytes - dist g.head g.tail
  min n (free - free % c.stride)

def acceptPacket (g : CaptureProgress w) : Option (List UInt8) → Capture w × CaptureProgress w
  | none => ({ c with capturePacketDrops := c.capturePacketDrops + 1 }, g)
  | some bytes =>
    let keep := c.keepCount g bytes.length
    ({ c with
        captureOverruns := if keep < bytes.length then c.captureOverruns + 1 else c.captureOverruns
        ring := c.ring.writeAt g.head (bytes.take keep) },
      { g with head := g.head + BitVec.ofNat w keep, totalFrames := g.totalFrames + keep / c.stride })

def publish (g : CaptureProgress w) : Capture w :=
  { c with ring := { c.ring with head := g.head }, captureSequence := c.captureSequence + g.totalFrames }

/-- The whole loop, from the loads to the store of `captureHead_`. -/
def receive (pkts : List (Option (List UInt8))) : Capture w :=
  let (c', g) := pkts.foldl (fun st pkt => st.1.acceptPacket st.2 pkt) (c, c.begin_)
  c'.publish g

/-! ### The consumer -/

/-- The cursor a read starts at: the tail, or the newest `limit` frames when more are unread. -/
def readCursor (limit : Nat) : BitVec w :=
  if limit * c.stride < c.ring.used then c.ring.head - BitVec.ofNat w (limit * c.stride) else c.ring.tail

def prepareCaptureRead (limit : Nat) (requestedFrames : Int) : Capture w × CaptureReadRegion w :=
  if !c.captureActive ∨ requestedFrames ≤ 0 ∨ c.stride = 0 then (c, {})
  else
    let tail := c.readCursor limit
    let frames := min (dist c.ring.head tail / c.stride) requestedFrames.toNat
    let bytes := frames * c.stride
    let offset := c.ring.offset tail
    let first := min bytes (c.ring.size.bytes - offset)
    ({ c with
        captureOverruns :=
          if limit * c.stride < c.ring.used ∧ c.captureLive then c.captureOverruns + 1 else c.captureOverruns
        captureUnderruns :=
          if frames < requestedFrames.toNat then c.captureUnderruns + 1 else c.captureUnderruns },
      { first := offset, firstBytes := first, secondBytes := bytes - first, consumerCursor := tail,
        frames, frameStride := c.stride })

def commitCaptureRead (region : CaptureReadRegion w) : Capture w :=
  if region.frames = 0 ∨ region.frameStride = 0 then c
  else
    { c with ring := { c.ring with
        tail := region.consumerCursor + BitVec.ofNat w (region.frames * region.frameStride) } }

def regionBytes (region : CaptureReadRegion w) : List UInt8 :=
  copyOut c.ring.data region.first region.firstBytes ++ copyOut c.ring.data 0 region.secondBytes

/-- `readCapturePcm`: the bytes copied to `dst` and the frames returned. -/
def readCapturePcm (limit : Nat) (frames : Int) : Capture w × List UInt8 × Nat :=
  if frames ≤ 0 then (c, [], 0)
  else
    let (c₁, region) := c.prepareCaptureRead limit frames
    (c₁.commitCaptureRead region, c₁.regionBytes region, region.frames)

def liveDiscard (keepFrames : Int) : Nat :=
  if c.captureLive ∨ !c.captureActive ∨ c.stride = 0 then 0 else c.ring.used / c.stride - keepFrames.toNat

def beginCaptureLive (keepFrames : Int) : Capture w × Nat :=
  let discarded := c.liveDiscard keepFrames
  ({ c with
      captureLive := true
      ring := if 0 < discarded then c.ring.advanceTail (discarded * c.stride) else c.ring
      startupCaptureDiscardFrames := if 0 < discarded then discarded else c.startupCaptureDiscardFrames },
    discarded)

def discardCount (maxFrames : Int) : Nat :=
  if !c.captureActive ∨ maxFrames ≤ 0 ∨ c.stride = 0 then 0 else min (c.ring.used / c.stride) maxFrames.toNat

def discardCaptureFrames (maxFrames : Int) : Capture w × Nat :=
  let discarded := c.discardCount maxFrames
  ({ c with ring := c.ring.advanceTail (discarded * c.stride) }, discarded)

def captureAvailableFrames (limit : Nat) : Nat :=
  if !c.captureActive ∨ c.stride = 0 then 0 else min (c.ring.used / c.stride) limit

/-! ### What the operations leave alone -/

variable {c}

@[simp] theorem prepareCaptureRead_active (limit : Nat) (frames : Int) :
    (c.prepareCaptureRead limit frames).1.captureActive = c.captureActive := by
  unfold prepareCaptureRead; split <;> rfl

@[simp] theorem prepareCaptureRead_format (limit : Nat) (frames : Int) :
    (c.prepareCaptureRead limit frames).1.format = c.format := by
  unfold prepareCaptureRead; split <;> rfl

@[simp] theorem commitCaptureRead_active (region : CaptureReadRegion w) :
    (c.commitCaptureRead region).captureActive = c.captureActive := by
  unfold commitCaptureRead; split <;> rfl

@[simp] theorem commitCaptureRead_format (region : CaptureReadRegion w) :
    (c.commitCaptureRead region).format = c.format := by
  unfold commitCaptureRead; split <;> rfl

@[simp] theorem readCapturePcm_active (limit : Nat) (frames : Int) :
    (c.readCapturePcm limit frames).1.captureActive = c.captureActive := by
  unfold readCapturePcm
  split
  · rfl
  · simp

@[simp] theorem readCapturePcm_format (limit : Nat) (frames : Int) :
    (c.readCapturePcm limit frames).1.format = c.format := by
  unfold readCapturePcm
  split
  · rfl
  · simp

theorem foldl_acceptPacket (pkts : List (Option (List UInt8))) (st : Capture w × CaptureProgress w) :
    let r := (pkts.foldl (fun st pkt => st.1.acceptPacket st.2 pkt) st).1
    r.captureActive = st.1.captureActive ∧ r.format = st.1.format ∧ r.ring.size = st.1.ring.size ∧
    r.ring.tail = st.1.ring.tail := by
  induction pkts generalizing st with
  | nil => exact ⟨rfl, rfl, rfl, rfl⟩
  | cons pkt pkts ih =>
    obtain ⟨h₁, h₂, h₃, h₄⟩ := ih (st.1.acceptPacket st.2 pkt)
    cases pkt <;> exact ⟨h₁, h₂, h₃, h₄⟩

@[simp] theorem receive_active (pkts : List (Option (List UInt8))) : (c.receive pkts).captureActive = c.captureActive :=
  (foldl_acceptPacket pkts (c, c.begin_)).1

@[simp] theorem receive_format (pkts : List (Option (List UInt8))) : (c.receive pkts).format = c.format :=
  (foldl_acceptPacket pkts (c, c.begin_)).2.1

end Capture

end UacDriver

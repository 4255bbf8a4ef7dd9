import UacDriver.Host
import UacDriver.LedgerStart

/-!
# Two starts side by side

Two drivers in a start, given the same answers of libusb and the same completions. `Alike` is what holds between them
from the session reset on. It is about what a session can see: the unread bytes and not the old ones around them, the
unread entries of the layout FIFO and not the slots. What neither start resets is kept apart, on each side for itself.

The counters need not agree, as one of the two resets leaves them: since the reset both sides have counted the same. The
histories are not part of it.
-/

namespace UacDriver

open Runs

/-! ### What the two sides have in common -/

namespace Ring

variable {w : Nat} {r r' : Ring w}

/-- The same cursors and the same unread bytes. -/
structure Same (r r' : Ring w) : Prop where
  size : r.size = r'.size
  head : r.head = r'.head
  tail : r.tail = r'.tail
  contents : r.contents = r'.contents
  used : r.used ≤ r.size.bytes

theorem Same.reset (hsize : r.size = r'.size) : Same { r with head := 0, tail := 0 } { r' with head := 0, tail := 0 } := by
  have hempty (q : Ring w) : ({ q with head := 0, tail := 0 } : Ring w).used = 0 := Cursor.dist_self 0
  refine ⟨hsize, rfl, rfl, ?_, ?_⟩
  · rw [Ring.contents, hempty, Ring.contents, hempty]
    rfl
  · rw [hempty]
    exact Nat.zero_le _

theorem contents_writeAt_head {xs : List UInt8} (hfit : r.used + xs.length ≤ r.size.bytes) :
    ((r.writeAt r.head xs).advanceHead xs.length).contents = r.contents ++ xs := by
  have hfit' : (r.writeAt r.head xs).used + xs.length ≤ (r.writeAt r.head xs).size.bytes := hfit
  rw [contents_advanceHead hfit']
  refine congrArg₂ (· ++ ·) ?_ (r.window_writeAt_self r.head (Nat.le_trans (Nat.le_add_left _ _) hfit))
  exact r.window_writeAt_of_le (Cursor.toNat_mod_eq_add_dist r.size.dvd_word r.head r.tail) le_rfl (by
    rw [Nat.add_assoc]
    exact Nat.add_le_add_left hfit _)

theorem Same.write (h : Same r r') {xs : List UInt8} (hfit : r.used + xs.length ≤ r.size.bytes) :
    Same ((r.writeAt r.head xs).advanceHead xs.length) ((r'.writeAt r'.head xs).advanceHead xs.length) := by
  have hused : r'.used = r.used := by rw [Ring.used, Ring.used, h.head, h.tail]
  have hfit' : r'.used + xs.length ≤ r'.size.bytes := by
    rw [hused, ← h.size]
    exact hfit
  refine ⟨h.size, congrArg (· + BitVec.ofNat w xs.length) h.head, h.tail, ?_, ?_⟩
  · rw [contents_writeAt_head hfit, contents_writeAt_head hfit', h.contents]
  · rw [used_advanceHead (r := r.writeAt r.head xs) hfit]
    exact hfit

end Ring

namespace Capture

variable {w : Nat} {c c' : Capture w}

structure Same (c c' : Capture w) : Prop where
  format : c.format = c'.format
  active : c.captureActive = c'.captureActive
  ring : c.ring.Same c'.ring

/-- What no start resets on the capture side. -/
def carried (c : Capture w) : Bool × Nat := (c.captureLive, c.startupCaptureDiscardFrames)

/-- The capture side as it would be published now. -/
def at_ (c : Capture w) (g : CaptureProgress w) : Capture w := { c with ring := { c.ring with head := g.head } }

/-- From `b` to `c` and from `b'` to `c'` the same has been counted. -/
structure Counted (b b' c c' : Capture w) : Prop where
  overruns : c.captureOverruns + b'.captureOverruns = c'.captureOverruns + b.captureOverruns
  underruns : c.captureUnderruns + b'.captureUnderruns = c'.captureUnderruns + b.captureUnderruns
  drops : c.capturePacketDrops + b'.capturePacketDrops = c'.capturePacketDrops + b.capturePacketDrops
  sequence : c.captureSequence + b'.captureSequence = c'.captureSequence + b.captureSequence

/-- Two packet loops in step, with what they have counted since they began in `b` and `b'`. -/
structure LoopSame (b b' : Capture w) (st st' : Capture w × CaptureProgress w) : Prop where
  progress : st.2 = st'.2
  tail : st.2.tail = st.1.ring.tail
  cap : (st.1.at_ st.2).Same (st'.1.at_ st'.2)
  counted : Counted b b' st.1 st'.1

theorem LoopSame.acceptPacket {b b' : Capture w} {st st' : Capture w × CaptureProgress w} (h : LoopSame b b' st st')
    (pkt : Option (List UInt8)) : LoopSame b b' (st.1.acceptPacket st.2 pkt) (st'.1.acceptPacket st'.2 pkt) := by
  obtain ⟨c, g⟩ := st
  obtain ⟨c', g'⟩ := st'
  obtain ⟨rfl, htail, hcap, hcounted⟩ := h
  cases pkt with
  | none =>
    refine ⟨rfl, htail, ⟨hcap.format, hcap.active, hcap.ring⟩, ⟨hcounted.overruns, hcounted.underruns, ?_,
      hcounted.sequence⟩⟩
    have hdrops : c.capturePacketDrops + b'.capturePacketDrops = c'.capturePacketDrops + b.capturePacketDrops :=
      hcounted.drops
    show c.capturePacketDrops + 1 + b'.capturePacketDrops = c'.capturePacketDrops + 1 + b.capturePacketDrops
    omega
  | some bytes =>
    have hkeep : c'.keepCount g bytes.length = c.keepCount g bytes.length := by
      have hstride : c'.stride = c.stride := congrArg StreamFormat.frameStride hcap.format.symm
      have hsize : c'.ring.size = c.ring.size := hcap.ring.size.symm
      rw [keepCount, keepCount, hstride, hsize]
    have hlen : (bytes.take (c.keepCount g bytes.length)).length = c.keepCount g bytes.length := by
      rw [List.length_take]
      exact Nat.min_eq_left (Nat.min_le_left _ _)
    have hfit : (c.at_ g).ring.used + (bytes.take (c.keepCount g bytes.length)).length ≤ c.ring.size.bytes := by
      have hused : Cursor.dist g.head g.tail ≤ c.ring.size.bytes := by
        rw [htail]
        exact hcap.ring.used
      have hfree : c.keepCount g bytes.length ≤ c.ring.size.bytes - Cursor.dist g.head g.tail :=
        (Nat.min_le_right _ _).trans (Nat.sub_le _ _)
      have hdist : (c.at_ g).ring.used = Cursor.dist g.head g.tail := by
        rw [htail]
        rfl
      omega
    have hring := hcap.ring.write hfit
    rw [hlen] at hring
    have hframes : c'.stride = c.stride := congrArg StreamFormat.frameStride hcap.format.symm
    refine ⟨?_, htail, ⟨hcap.format, hcap.active, ?_⟩, ⟨?_, hcounted.underruns, hcounted.drops, hcounted.sequence⟩⟩
    · simp only [Capture.acceptPacket, hkeep, hframes]
    · simp only [Capture.acceptPacket, hkeep]
      exact hring
    · have hoverruns : c.captureOverruns + b'.captureOverruns = c'.captureOverruns + b.captureOverruns :=
        hcounted.overruns
      simp only [Capture.acceptPacket, hkeep]
      split <;> omega

theorem Same.receive (h : Same c c') (pkts : List (Option (List UInt8))) :
    (c.receive pkts).Same (c'.receive pkts) ∧ Counted c c' (c.receive pkts) (c'.receive pkts) := by
  have hloop (st st' : Capture w × CaptureProgress w) (hst : LoopSame c c' st st') :
      LoopSame c c' (pkts.foldl (fun st pkt => st.1.acceptPacket st.2 pkt) st)
        (pkts.foldl (fun st pkt => st.1.acceptPacket st.2 pkt) st') := by
    induction pkts generalizing st st' with
    | nil => exact hst
    | cons pkt pkts ih => exact ih _ _ (hst.acceptPacket pkt)
  have hbegin : LoopSame c c' (c, c.begin_) (c', c'.begin_) := by
    refine ⟨?_, rfl, ⟨h.format, h.active, h.ring⟩, ⟨?_, ?_, ?_, ?_⟩⟩
    · rw [begin_, begin_, h.ring.head, h.ring.tail]
    all_goals exact Nat.add_comm _ _
  obtain ⟨hprogress, -, hend, hcounted⟩ := hloop _ _ hbegin
  refine ⟨⟨hend.format, hend.active, hend.ring⟩, ⟨hcounted.overruns, hcounted.underruns, hcounted.drops, ?_⟩⟩
  have hframes := congrArg CaptureProgress.totalFrames hprogress
  have hsequence := hcounted.sequence
  show _ + _ + c'.captureSequence = _ + _ + c.captureSequence
  omega

theorem receive_carried (pkts : List (Option (List UInt8))) :
    (c.receive pkts).carried = c.carried ∧ (c.receive pkts).ring.tail = c.ring.tail := by
  have hloop (st : Capture w × CaptureProgress w) :
      (pkts.foldl (fun st pkt => st.1.acceptPacket st.2 pkt) st).1.carried = st.1.carried := by
    induction pkts generalizing st with
    | nil => rfl
    | cons pkt pkts ih =>
      refine (ih _).trans ?_
      cases pkt <;> rfl
  exact ⟨hloop (c, c.begin_), (foldl_acceptPacket pkts (c, c.begin_)).2.2.2⟩

end Capture

/-- The playback side of a session without the positions and the credit. -/
structure PlaybackSession (w : Nat) where
  format : StreamFormat
  size : RingSize w
  head : BitVec w
  tail : BitVec w
  playbackStarted : Bool
  queuedOutFrames : Nat
  playbackTargetFrames : Nat
  writeHeadroomFrames : Nat
  playbackCreditReserve : Nat

def Playback.session {w : Nat} (p : Playback w) : PlaybackSession w where
  format := p.format
  size := p.ring.size
  head := p.ring.head
  tail := p.ring.tail
  playbackStarted := p.playbackStarted
  queuedOutFrames := p.queuedOutFrames
  playbackTargetFrames := p.playbackTargetFrames
  writeHeadroomFrames := p.writeHeadroomFrames
  playbackCreditReserve := p.playbackCreditReserve

namespace MetaFifo

variable {f f' : MetaFifo}

/-- The same cursors and the same unread entries. -/
structure Same (f f' : MetaFifo) : Prop where
  read : f.implicitRead = f'.implicitRead
  write : f.implicitWrite = f'.implicitWrite
  entries : ∀ i, f.implicitRead ≤ i → i < f.implicitWrite → f.entry i = f'.entry i

/-- The unread entries, oldest first. -/
def unread (f : MetaFifo) : List Nat :=
  (List.range (f.implicitWrite - f.implicitRead)).map fun i => f.entry (f.implicitRead + i)

theorem Same.unread (h : Same f f') : f.unread = f'.unread := by
  rw [MetaFifo.unread, MetaFifo.unread, ← h.read, ← h.write]
  refine List.map_congr_left fun i hi => h.entries _ (Nat.le_add_right _ _) ?_
  have hlt := List.mem_range.1 hi
  omega

theorem Same.makeRoom (h : Same f f') : f.makeRoom.Same f'.makeRoom := by
  unfold MetaFifo.makeRoom
  rw [← h.read, ← h.write]
  split
  · exact ⟨rfl, rfl, fun i hi hlt => absurd hlt (Nat.not_lt.2 hi)⟩
  · exact h

/-- Both sides store the same count in the same slot, so no slot has to be told from another. -/
theorem Same.push (h : Same f f') (v : Nat) : (f.push v).Same (f'.push v) := by
  have hroom := h.makeRoom
  refine ⟨hroom.read, ?_, fun i hi hlt => ?_⟩
  · rw [push_write, push_write, h.write]
  · have hwrite : f'.makeRoom.implicitWrite = f.makeRoom.implicitWrite := hroom.write.symm
    show (f.makeRoom.setEntry f.makeRoom.implicitWrite v).entry i =
      (f'.makeRoom.setEntry f'.makeRoom.implicitWrite v).entry i
    rw [hwrite]
    simp only [entry, setEntry]
    by_cases hslot : slot i = slot f.makeRoom.implicitWrite
    · rw [hslot, Function.update_self, Function.update_self]
    · have hold : i < f.makeRoom.implicitWrite := by
        refine lt_of_le_of_ne (Nat.lt_succ_iff.1 ?_) fun he => hslot (congrArg slot he)
        rw [push_write] at hlt
        rw [makeRoom_write]
        exact hlt
      rw [Function.update_of_ne hslot, Function.update_of_ne hslot]
      exact hroom.entries i hi hold

/-- An overflow is on both sides or on neither. -/
theorem Same.push_overruns (h : Same f f') (v : Nat) :
    (f.push v).metadataFifoOverruns + f'.metadataFifoOverruns =
      (f'.push v).metadataFifoOverruns + f.metadataFifoOverruns := by
  show f.makeRoom.metadataFifoOverruns + _ = f'.makeRoom.metadataFifoOverruns + _
  unfold MetaFifo.makeRoom
  rw [← h.read, ← h.write]
  split
  · show f.metadataFifoOverruns + 1 + _ = f'.metadataFifoOverruns + 1 + _
    omega
  · exact Nat.add_comm _ _

theorem Same.pushAll (h : Same f f') (vs : List Nat) :
    (vs.foldl MetaFifo.push f).Same (vs.foldl MetaFifo.push f') ∧
      (vs.foldl MetaFifo.push f).metadataFifoOverruns + f'.metadataFifoOverruns =
        (vs.foldl MetaFifo.push f').metadataFifoOverruns + f.metadataFifoOverruns := by
  induction vs generalizing f f' with
  | nil => exact ⟨h, Nat.add_comm _ _⟩
  | cons v vs ih =>
    obtain ⟨hsame, hrest⟩ := ih (h.push v)
    have hfirst := h.push_overruns v
    refine ⟨hsame, ?_⟩
    simp only [List.foldl_cons]
    omega

theorem Same.take (h : Same f f') (n : Nat) : (f.take n).Same (f'.take n) :=
  ⟨congrArg (· + n) h.read, h.write, fun i hi hlt => h.entries i (Nat.le_trans (Nat.le_add_right _ _) hi) hlt⟩

theorem Same.primePacket (h : Same f f') {maxFrames n frames : Nat} {g : MetaFifo}
    (hn : n ≤ f.implicitWrite - f.implicitRead) (hg : MetaFifo.primePacket maxFrames n f = some (frames, g)) :
    ∃ g', MetaFifo.primePacket maxFrames n f' = some (frames, g') ∧ g.Same g' := by
  induction n generalizing f f' with
  | zero => cases hg
  | succ n ih =>
    have hentry : f'.entry f'.implicitRead = f.entry f.implicitRead := by
      rw [← h.read]
      exact (h.entries _ le_rfl (by omega)).symm
    simp only [MetaFifo.primePacket] at hg ⊢
    rw [hentry]
    split at hg
    · rename_i hskip
      rw [if_pos hskip]
      refine ih (h.take 1) ?_ hg
      show n ≤ f.implicitWrite - (f.implicitRead + 1)
      omega
    · rename_i hkeep
      rw [if_neg hkeep]
      cases hg
      exact ⟨_, rfl, h.take 1⟩

theorem Same.primePackets (h : Same f f') {maxFrames n : Nat} {plan : List Nat} {g : MetaFifo}
    (hg : MetaFifo.primePackets maxFrames n f = some (plan, g)) :
    ∃ g', MetaFifo.primePackets maxFrames n f' = some (plan, g') ∧ g.Same g' := by
  induction n generalizing f f' plan g with
  | zero =>
    cases hg
    exact ⟨f', rfl, h⟩
  | succ n ih =>
    simp only [MetaFifo.primePackets, Option.bind_eq_some_iff, Option.map_eq_some_iff] at hg
    obtain ⟨⟨frames, f₁⟩, hfirst, ⟨rest, f₂⟩, hrest, he⟩ := hg
    cases he
    obtain ⟨f₁', hfirst', hsame⟩ := h.primePacket le_rfl hfirst
    obtain ⟨f₂', hrest', hsame'⟩ := ih hsame hrest
    refine ⟨f₂', ?_, hsame'⟩
    rw [MetaFifo.primePackets, ← h.read, ← h.write, hfirst', Option.bind_some]
    dsimp only
    rw [hrest']
    rfl

theorem primePacket_overruns {maxFrames n frames : Nat} {g : MetaFifo}
    (hg : MetaFifo.primePacket maxFrames n f = some (frames, g)) : g.metadataFifoOverruns = f.metadataFifoOverruns := by
  induction n generalizing f with
  | zero => cases hg
  | succ n ih =>
    simp only [MetaFifo.primePacket] at hg
    split at hg
    · exact ih (f := f.take 1) hg
    · cases hg
      rfl

theorem primePackets_overruns {maxFrames n : Nat} {plan : List Nat} {g : MetaFifo}
    (hg : MetaFifo.primePackets maxFrames n f = some (plan, g)) : g.metadataFifoOverruns = f.metadataFifoOverruns := by
  induction n generalizing f plan g with
  | zero =>
    cases hg
    rfl
  | succ n ih =>
    simp only [MetaFifo.primePackets, Option.bind_eq_some_iff, Option.map_eq_some_iff] at hg
    obtain ⟨⟨frames, f₁⟩, hfirst, ⟨rest, f₂⟩, hrest, he⟩ := hg
    cases he
    exact (ih hrest).trans (primePacket_overruns hfirst)

end MetaFifo

/-! ### Two starts side by side -/

/-- What libusb delivers, and not what a client calls. -/
def DriverAct.ofDevice : DriverAct → Bool
  | .outDone .. | .feedbackDone .. | .captureDone .. => true
  | _ => false

/-- The other threads only serve completions, and the completions are given: they do not depend on the driver. -/
structure Answers.Scripted {w : Nat} (a : Answers w) : Prop where
  ofDevice : ∀ place d, ∀ act ∈ a.others place d, act.ofDevice = true
  fixed : ∀ place d d', a.others place d = a.others place d'

/-- libusb delivers nothing during the call. -/
def Answers.Silent {w : Nat} (a : Answers w) : Prop := ∀ place d, a.others place d = []

/-- What a driver in a start has besides its two sides and the layout FIFO. -/
structure Core where
  userspaceBufferConfig : UserspaceBufferConfig
  transferCount : Nat
  graphQuantum : Nat
  captureLimitFrames : Nat
  capturePacketsPerTransfer : Nat
  captureMaxFramesPerPacket : Nat
  outCount : Nat
  feedbackCount : Nat
  pending : List Nat
  inflight : Int
  captureInflight : Int
  stopRequested : Bool
  transportFailed : Bool
  streaming : Bool
  owned : Finset Xfer

/-- The counters that `start` or the capture half of `startDuplex` stores zero to. -/
inductive Counter where
  | playbackOverruns
  | playbackUnderruns
  | playbackShortPackets
  | playbackShortFrames
  | writesSinceDrain
  | maxWritesBetweenDrains
  | deferredTransfers
  | deferredNoMetadata
  | deferredNoPcm
  | zeroRunwayEvents
  | implicitMetadataInvalid
  | playbackTransferErrors
  | captureTransferErrors
  | captureOverruns
  | captureUnderruns
  | capturePacketDrops
  | captureSequence
  | metadataFifoOverruns

/-- The latches that go with the counters. -/
structure Latches where
  playbackOverrunActive : Bool
  playbackUnderrunActive : Bool
  implicitZeroRunwayActive : Bool

structure Statistics where
  counts : Counter → Nat
  latches : Latches

namespace Driver

variable {w : Nat} {s s' d d' e e' : Driver w}

def count (d : Driver w) : Counter → Nat
  | .playbackOverruns => d.pb.playbackOverruns
  | .playbackUnderruns => d.pb.playbackUnderruns
  | .playbackShortPackets => d.pb.playbackShortPackets
  | .playbackShortFrames => d.pb.playbackShortFrames
  | .writesSinceDrain => d.pb.writesSinceDrain
  | .maxWritesBetweenDrains => d.pb.maxWritesBetweenDrains
  | .deferredTransfers => d.stats.deferredTransfers
  | .deferredNoMetadata => d.stats.deferredNoMetadata
  | .deferredNoPcm => d.stats.deferredNoPcm
  | .zeroRunwayEvents => d.stats.zeroRunwayEvents
  | .implicitMetadataInvalid => d.stats.implicitMetadataInvalid
  | .playbackTransferErrors => d.stats.playbackTransferErrors
  | .captureTransferErrors => d.stats.captureTransferErrors
  | .captureOverruns => d.cap.captureOverruns
  | .captureUnderruns => d.cap.captureUnderruns
  | .capturePacketDrops => d.cap.capturePacketDrops
  | .captureSequence => d.cap.captureSequence
  | .metadataFifoOverruns => d.fifo.metadataFifoOverruns

def latches (d : Driver w) : Latches where
  playbackOverrunActive := d.pb.playbackOverrunActive
  playbackUnderrunActive := d.pb.playbackUnderrunActive
  implicitZeroRunwayActive := d.implicitZeroRunwayActive

def statistics (d : Driver w) : Statistics := ⟨d.count, d.latches⟩

/-- From `s` to `d` and from `s'` to `d'` the same has been counted, and no latch has moved. -/
structure Counted (s s' d d' : Driver w) : Prop where
  count : ∀ k, d.count k + s'.count k = d'.count k + s.count k
  latches : d.latches = s.latches ∧ d'.latches = s'.latches

theorem Counted.refl (s s' : Driver w) : Counted s s' s s' := ⟨fun _ => Nat.add_comm _ _, rfl, rfl⟩

theorem Counted.symm (h : Counted s s' d d') : Counted s' s d' d := ⟨fun k => (h.count k).symm, h.latches.2, h.latches.1⟩

/-- What was counted before decides whether the two sides agree. -/
theorem Counted.statistics_iff (h : Counted s s' d d') : d.statistics = d'.statistics ↔ s.statistics = s'.statistics := by
  have hcounts : d.count = d'.count ↔ s.count = s'.count := by
    constructor
    · intro he
      funext k
      have hk := h.count k
      rw [he] at hk
      omega
    · intro he
      funext k
      have hk := h.count k
      rw [he] at hk
      omega
  rw [statistics, statistics, h.latches.1, h.latches.2, Statistics.mk.injEq, hcounts, statistics, statistics,
    Statistics.mk.injEq]

def core (d : Driver w) : Core where
  userspaceBufferConfig := d.userspaceBufferConfig
  transferCount := d.geometry.transferCount
  graphQuantum := d.geometry.graphQuantum
  captureLimitFrames := d.geometry.captureLimitFrames
  capturePacketsPerTransfer := d.geometry.capturePacketsPerTransfer
  captureMaxFramesPerPacket := d.geometry.captureMaxFramesPerPacket
  outCount := d.outCount
  feedbackCount := d.feedbackCount
  pending := d.pending
  inflight := d.inflight
  captureInflight := d.captureInflight
  stopRequested := d.stopRequested
  transportFailed := d.transportFailed
  streaming := d.streaming
  owned := d.usb.owned

theorem Counted.congr (h : Counted s s' d d') (hs : e.statistics = d.statistics) (hs' : e'.statistics = d'.statistics) :
    Counted s s' e e' := by
  have hcount : e.count = d.count := congrArg Statistics.counts hs
  have hcount' : e'.count = d'.count := congrArg Statistics.counts hs'
  refine ⟨fun k => ?_, (congrArg Statistics.latches hs).trans h.latches.1,
    (congrArg Statistics.latches hs').trans h.latches.2⟩
  rw [hcount, hcount']
  exact h.count k

/-- Only capture transfers are about. -/
structure Quiet (d : Driver w) : Prop where
  pending : d.pending = []
  owned : ∀ x ∈ d.usb.owned, x.isPlayback = false

/-- Between the session reset and the first OUT submit; `s` and `s'` are the drivers behind the reset. The playback sides
stay as they are. With `untouched` nothing has been captured yet. -/
structure Alike (s s' : Driver w) (untouched : Prop) (d d' : Driver w) : Prop where
  pb : d.pb = s.pb ∧ d'.pb = s'.pb
  carried : d.cap.carried = s.cap.carried ∧ d'.cap.carried = s'.cap.carried
  counted : Counted s s' d d'
  session : s.pb.session = s'.pb.session
  cap : d.cap.Same d'.cap
  tail : d.cap.ring.tail = 0
  head : untouched → d.cap.ring.head = 0
  fifo : d.fifo.Same d'.fifo
  core : d.core = d'.core
  quiet : d.Quiet

namespace Alike

variable {q q' : Prop}

theorem mono (h : Alike s s' q d d') (hq : q' → q) : Alike s s' q' d d' :=
  ⟨h.pb, h.carried, h.counted, h.session, h.cap, h.tail, fun hq' => h.head (hq hq'), h.fifo, h.core, h.quiet⟩

/-- The sides, the FIFO and the statistics, which most steps leave alone. -/
def sides (d : Driver w) : Playback w × Capture w × MetaFifo × Statistics := (d.pb, d.cap, d.fifo, d.statistics)

theorem congr (h : Alike s s' q d d') (hs : sides e = sides d) (hs' : sides e' = sides d') (hcore : e.core = e'.core)
    (hquiet : e.Quiet) : Alike s s' q e e' := by
  simp only [sides, Prod.mk.injEq] at hs hs'
  obtain ⟨hpb, hcap, hfifo, hstatistics⟩ := hs
  obtain ⟨hpb', hcap', hfifo', hstatistics'⟩ := hs'
  refine ⟨?_, ?_, h.counted.congr hstatistics hstatistics', h.session, ?_, ?_, ?_, ?_, hcore, hquiet⟩
  · rw [hpb, hpb']
    exact h.pb
  · rw [hcap, hcap']
    exact h.carried
  · rw [hcap, hcap']
    exact h.cap
  · rw [hcap]
    exact h.tail
  · rw [hcap]
    exact h.head
  · rw [hfifo, hfifo']
    exact h.fifo

theorem playbackFormat (h : Alike s s' q d d') : d.pb.format = d'.pb.format := by
  rw [h.pb.1, h.pb.2]
  exact congrArg PlaybackSession.format h.session

theorem implicitFormat (h : Alike s s' q d d') : d.implicitFormat = d'.implicitFormat := by
  rw [Driver.implicitFormat, Driver.implicitFormat, h.playbackFormat, h.cap.format]

theorem implicitMode (h : Alike s s' q d d') : d.implicitMode = d'.implicitMode := by
  rw [Driver.implicitMode, Driver.implicitMode, h.cap.active, h.implicitFormat]

theorem release (h : Alike s s' q d d') (x : Xfer) : Alike s s' q (d.release x) (d'.release x) :=
  h.congr rfl rfl (congrArg (fun c : Core => { c with owned := c.owned.erase x }) h.core)
    ⟨h.quiet.pending, fun y hy => h.quiet.owned y (Finset.mem_of_mem_erase hy)⟩

theorem retireCapture (h : Alike s s' q d d') : Alike s s' q d.retireCapture d'.retireCapture :=
  h.congr rfl rfl (congrArg (fun c : Core => { c with captureInflight := c.captureInflight - 1 }) h.core)
    ⟨h.quiet.pending, h.quiet.owned⟩

theorem wakeCapture (h : Alike s s' q d d') : Alike s s' q d.wakeCapture d'.wakeCapture :=
  h.congr rfl rfl h.core ⟨h.quiet.pending, h.quiet.owned⟩

/-- The store of `captureActive_`, on both sides. -/
theorem setActive (h : Alike s s' q d d') (active : Bool) :
    Alike s s' q { d with cap := { d.cap with captureActive := active } }
      { d' with cap := { d'.cap with captureActive := active } } :=
  ⟨h.pb, h.carried, h.counted.congr rfl rfl, h.session, ⟨h.cap.format, rfl, h.cap.ring⟩, h.tail, h.head, h.fifo, h.core,
    ⟨h.quiet.pending, h.quiet.owned⟩⟩

theorem failCapture (h : Alike s s' q d d') : Alike s s' q d.failCapture d'.failCapture := by
  have hcore := congrArg (fun c : Core => { c with
    captureInflight := c.captureInflight - 1, transportFailed := true, streaming := false, stopRequested := true }) h.core
  refine ⟨h.pb, h.carried, ⟨fun k => ?_, h.counted.latches⟩, h.session, ⟨h.cap.format, rfl, h.cap.ring⟩, h.tail, h.head,
    h.fifo, hcore, ⟨h.quiet.pending, h.quiet.owned⟩⟩
  have hk := h.counted.count k
  cases k with
  | captureTransferErrors =>
    show d.stats.captureTransferErrors + 1 + s'.stats.captureTransferErrors =
      d'.stats.captureTransferErrors + 1 + s.stats.captureTransferErrors
    simp only [count] at hk
    omega
  | _ => exact hk

theorem submit (h : Alike s s' q d d') (j : Nat) (ok : Bool) (lengths : List Nat) :
    Alike s s' q (d.submit (.capture j) ok lengths) (d'.submit (.capture j) ok lengths) := by
  refine h.congr rfl rfl (congrArg (fun c : Core =>
    { c with owned := if ok then insert (Xfer.capture j) c.owned else c.owned }) h.core) ⟨h.quiet.pending, fun y hy => ?_⟩
  cases ok with
  | true =>
    rcases Finset.mem_insert.1 hy with rfl | hy
    · rfl
    · exact h.quiet.owned y hy
  | false => exact h.quiet.owned y hy

theorem receiveCapture (h : Alike s s' False d d') (x : Transfer) :
    Alike s s' False (d.receiveCapture x) (d'.receiveCapture x) := by
  have hstride : d'.cap.stride = d.cap.stride := congrArg StreamFormat.frameStride h.cap.format.symm
  have hcap (c : Capture w) := Capture.receive_carried (c := c) (x.received d.cap.stride)
  obtain ⟨hsame, hcounted⟩ := h.cap.receive (x.received d.cap.stride)
  obtain ⟨hfifo, hoverruns⟩ := h.fifo.pushAll ((x.received d.cap.stride).map (packetFrames d.cap.stride))
  unfold Driver.receiveCapture
  rw [hstride, ← h.implicitFormat]
  refine ⟨h.pb, ⟨?_, ?_⟩, ⟨fun k => ?_, h.counted.latches⟩, h.session, hsame, ?_, False.elim, ?_, h.core,
    ⟨h.quiet.pending, h.quiet.owned⟩⟩
  · exact (hcap d.cap).1.trans h.carried.1
  · exact (hcap d'.cap).1.trans h.carried.2
  · have hk := h.counted.count k
    obtain ⟨hcapOverruns, hunderruns, hdrops, hsequence⟩ := hcounted
    cases k <;> simp only [count] at hk ⊢
    case metadataFifoOverruns =>
      split
      · omega
      · exact hk
    all_goals omega
  · exact (hcap d.cap).2.trans h.tail
  · dsimp only
    split
    · exact hfifo
    · exact h.fifo

theorem onCapture (h : Alike s s' False d d') (j : Nat) (x : Transfer) (ok : Xfer → Bool) :
    Alike s s' False (d.onCapture j x ok) (d'.onCapture j x ok) := by
  have hpending : d'.pending = [] := (congrArg Core.pending h.core).symm.trans h.quiet.pending
  have hstop : d'.stopRequested = d.stopRequested := (congrArg Core.stopRequested h.core).symm
  have hnone : (d.receiveCapture x).submitPendingImplicitTransfers ok = d.receiveCapture x :=
    Idle.submitPendingImplicitTransfers_nil (d := d.receiveCapture x) h.quiet.pending ok
  have hnone' : (d'.receiveCapture x).submitPendingImplicitTransfers ok = d'.receiveCapture x :=
    Idle.submitPendingImplicitTransfers_nil (d := d'.receiveCapture x) hpending ok
  have hreceived := (h.receiveCapture x).wakeCapture
  have hfailed : (d'.receiveCapture x).wakeCapture.transportFailed = (d.receiveCapture x).wakeCapture.transportFailed :=
    (congrArg Core.transportFailed hreceived.core).symm
  unfold Driver.onCapture
  rw [← h.cap.active, hstop, hnone, hnone']
  split
  · exact h.retireCapture
  split
  · exact h.retireCapture
  split
  · exact h.failCapture
  dsimp only
  rw [hfailed]
  split
  · exact hreceived.retireCapture
  split
  · exact hreceived.submit j _ _
  · exact (hreceived.submit j _ _).failCapture

theorem step (h : Alike s s' False d d') (act : DriverAct) (hact : act.ofDevice = true) :
    Alike s s' False (d.step act) (d'.step act) := by
  have howned : d'.usb.owned = d.usb.owned := (congrArg Core.owned h.core).symm
  cases act with
  | outDone i status results ok =>
    have hi : .out i ∉ d.usb.owned := fun hi => Bool.noConfusion (h.quiet.owned _ hi)
    simp only [Driver.step, howned, if_neg hi]
    exact h
  | feedbackDone i x ok =>
    have hi : .feedback i ∉ d.usb.owned := fun hi => Bool.noConfusion (h.quiet.owned _ hi)
    simp only [Driver.step, howned, if_neg hi]
    exact h
  | captureDone j x ok =>
    simp only [Driver.step, howned]
    split
    · exact (h.release _).onCapture j x ok
    · exact h
  | _ => cases hact

/-- A wait at the same place on both sides. -/
theorem wait {a : Answers w} (ha : a.Scripted) (h : Alike s s' a.Silent d d') (place : Place) :
    Alike s s' a.Silent (run Driver.step d (a.others place d))
      (run Driver.step d' (a.others place d')) := by
  rw [ha.fixed place d' d]
  by_cases hnothing : a.Silent
  · rw [hnothing place d]
    exact h
  · have hrun := run_related (C := fun act : DriverAct => act.ofDevice = true) (R := Alike s s' False)
      (fun _ _ act hact h => h.step act hact) (ha.ofDevice place d) (h.mono False.elim)
    exact hrun.mono hnothing

/-- The submit loop of the capture pump. -/
theorem submitCaptures {a : Answers w} (ha : a.Scripted) (lengths : List Nat) (js : List Nat) {d d' : Driver w}
    (h : Alike s s' a.Silent d d')
    (hok : (Driver.submitCaptures lengths a js d).2 = true) :
    (Driver.submitCaptures lengths a js d').2 = true ∧
      Alike s s' a.Silent (Driver.submitCaptures lengths a js d).1
        (Driver.submitCaptures lengths a js d').1 := by
  induction js generalizing d d' with
  | nil => exact ⟨rfl, h⟩
  | cons j js ih =>
    have hw := h.wait ha (.captureSubmit j)
    simp only [Driver.submitCaptures] at hok ⊢
    generalize run Driver.step d (a.others (.captureSubmit j) d) = e at *
    generalize run Driver.step d' (a.others (.captureSubmit j) d') = e' at *
    cases hsubmit : a.submit (.capture j) with
    | false =>
      rw [hsubmit] at hok
      cases hok
    | true =>
      rw [hsubmit, if_pos rfl] at hok
      rw [if_pos rfl]
      have hcounted : Alike s s' _ ({ e with captureInflight := e.captureInflight + 1 } : Driver w)
          { e' with captureInflight := e'.captureInflight + 1 } :=
        hw.congr rfl rfl (congrArg (fun c : Core => { c with captureInflight := c.captureInflight + 1 }) hw.core)
          ⟨hw.quiet.pending, hw.quiet.owned⟩
      exact ih (hcounted.submit j true lengths) hok

end Alike

/-! ### What a session starts with -/

/-- What the starts of the two paths reset differently, or not at all, of what a session works with. -/
structure Carried where
  captureLive : Bool
  startupCaptureDiscardFrames : Nat
  playbackCredit : Int
  writtenFrames : Nat
  playedFrames : Nat

/-- The state of a session right behind its start. -/
structure Session (w : Nat) where
  carried : Carried
  statistics : Statistics
  core : Core
  playback : PlaybackSession w
  startupPrimeFrames : Nat
  captureFormat : StreamFormat
  captureActive : Bool
  captureHead : BitVec w
  captureTail : BitVec w
  captured : List UInt8
  implicitRead : Nat
  implicitWrite : Nat
  layout : List Nat
  geometry : Geometry
  pacing : Pacing
  transfers : Nat → Transfer

def carried (d : Driver w) : Carried where
  captureLive := d.cap.captureLive
  startupCaptureDiscardFrames := d.cap.startupCaptureDiscardFrames
  playbackCredit := d.pb.playbackCredit
  writtenFrames := d.pb.writtenFrames
  playedFrames := d.pb.playedFrames

def session (d : Driver w) : Session w where
  carried := d.carried
  statistics := d.statistics
  core := d.core
  playback := d.pb.session
  startupPrimeFrames := d.pb.startupPrimeFrames
  captureFormat := d.cap.format
  captureActive := d.cap.captureActive
  captureHead := d.cap.ring.head
  captureTail := d.cap.ring.tail
  captured := d.cap.ring.contents
  implicitRead := d.fifo.implicitRead
  implicitWrite := d.fifo.implicitWrite
  layout := d.fifo.unread
  geometry := d.geometry
  pacing := d.pacing
  transfers := d.transfers

theorem Alike.carried_eq {q : Prop} (h : Alike s s' q d d') : d.carried = s.carried ∧ d'.carried = s'.carried := by
  obtain ⟨hlive, hdiscard⟩ := Prod.mk.inj h.carried.1
  obtain ⟨hlive', hdiscard'⟩ := Prod.mk.inj h.carried.2
  refine ⟨?_, ?_⟩
  · rw [Driver.carried, h.pb.1, hlive, hdiscard, Driver.carried]
  · rw [Driver.carried, h.pb.2, hlive', hdiscard', Driver.carried]

/-- The initial plan is the capture layout, and that is the same on both sides. -/
theorem Alike.initialPlan {q : Prop} (h : Alike s s' q d d')
    {maxFramesPerPacket : Nat} {nominal plan : List Nat} {fifo : MetaFifo}
    (he : d.initialPlan maxFramesPerPacket nominal = some (plan, fifo)) :
    ∃ fifo', d'.initialPlan maxFramesPerPacket nominal = some (plan, fifo') ∧ fifo.Same fifo' := by
  unfold Driver.initialPlan at he ⊢
  rw [← h.implicitMode]
  by_cases hmode : d.implicitMode = true
  · rw [if_pos hmode] at he ⊢
    exact h.fifo.primePackets he
  · rw [if_neg hmode] at he ⊢
    cases he
    exact ⟨_, rfl, h.fifo⟩

theorem startIsoPump_keeps {maxPacket : Int} {alloc : Bool} (he : d.startIsoPump maxPacket alloc = some e) :
    e.cap = d.cap ∧ e.pb = { d.pb with startupPrimeFrames := e.pb.startupPrimeFrames } ∧ e.pending = [] := by
  unfold Driver.startIsoPump at he
  dsimp only at he
  obtain ⟨-, hplan⟩ := Option.ite_none_left_eq_some.1 he
  obtain ⟨⟨plan, fifo⟩, -, rfl⟩ := Option.map_eq_some_iff.1 hplan
  exact ⟨rfl, rfl, rfl⟩

theorem startIsoPump_carried {maxPacket : Int} {alloc : Bool} (he : d.startIsoPump maxPacket alloc = some e) :
    e.carried = d.carried := by
  obtain ⟨hcap, hpb, -⟩ := startIsoPump_keeps he
  rw [carried, hcap, hpb, carried]

theorem initialPlan_overruns {maxFramesPerPacket : Nat} {nominal plan : List Nat} {fifo : MetaFifo}
    (he : d.initialPlan maxFramesPerPacket nominal = some (plan, fifo)) :
    fifo.metadataFifoOverruns = d.fifo.metadataFifoOverruns := by
  unfold Driver.initialPlan at he
  split at he
  · exact MetaFifo.primePackets_overruns he
  · cases he
    rfl

theorem startIsoPump_statistics {maxPacket : Int} {alloc : Bool} (he : d.startIsoPump maxPacket alloc = some e) :
    e.statistics = d.statistics := by
  unfold Driver.startIsoPump at he
  dsimp only at he
  obtain ⟨-, hplan⟩ := Option.ite_none_left_eq_some.1 he
  obtain ⟨⟨plan, fifo⟩, htaken, rfl⟩ := Option.map_eq_some_iff.1 hplan
  refine congrArg (Statistics.mk · d.latches) (funext fun k => ?_)
  cases k with
  | metadataFifoOverruns => exact initialPlan_overruns htaken
  | _ => rfl

/-- Behind `startIsoPump` the two sessions differ in nothing but what was carried over and the statistics. -/
theorem Alike.startIsoPump {q : Prop} (h : Alike s s' q d d')
    {maxPacket : Int} {alloc : Bool} (he : d.startIsoPump maxPacket alloc = some e) :
    ∃ e', d'.startIsoPump maxPacket alloc = some e' ∧
      e.session = { e'.session with carried := e.carried, statistics := e.statistics } := by
  have hformat := h.playbackFormat
  have hstride : d'.stride = d.stride := congrArg StreamFormat.frameStride hformat.symm
  have hcount : d'.geometry.transferCount = d.geometry.transferCount := (congrArg Core.transferCount h.core).symm
  have hconfig : d'.userspaceBufferConfig = d.userspaceBufferConfig := (congrArg Core.userspaceBufferConfig h.core).symm
  have hquantum : d'.geometry.graphQuantum = d.geometry.graphQuantum := (congrArg Core.graphQuantum h.core).symm
  have hfeedback : d'.feedbackTransfers = d.feedbackTransfers := by
    rw [feedbackTransfers, feedbackTransfers, hformat]
  have hplayback : d'.pb.session = d.pb.session := by
    rw [h.pb.1, h.pb.2]
    exact h.session.symm
  have htarget : d'.pb.playbackTargetFrames = d.pb.playbackTargetFrames :=
    congrArg PlaybackSession.playbackTargetFrames hplayback
  unfold Driver.startIsoPump at he ⊢
  dsimp only at he ⊢
  rw [hstride, hcount, hconfig, hquantum, htarget, hfeedback, ← hformat]
  obtain ⟨hchecks, he⟩ := Option.ite_none_left_eq_some.1 he
  rw [if_neg hchecks]
  obtain ⟨⟨plan, fifo⟩, hplan, rfl⟩ := Option.map_eq_some_iff.1 he
  obtain ⟨fifo', hplan', hfifo⟩ := h.initialPlan hplan
  rw [hplan']
  refine ⟨_, rfl, ?_⟩
  have hlimit := congrArg Core.captureLimitFrames h.core
  have hpackets := congrArg Core.capturePacketsPerTransfer h.core
  have hframes := congrArg Core.captureMaxFramesPerPacket h.core
  simp only [Driver.session, Session.mk.injEq]
  refine ⟨trivial, trivial, ?_, ?_, trivial, h.cap.format, h.cap.active, h.cap.ring.head, h.cap.ring.tail,
    h.cap.ring.contents, hfifo.read, hfifo.write, hfifo.unread, ?_, trivial, trivial⟩
  -- the rewriting has made the fields of the second side that are read here those of the first
  · exact congrArg (fun c : Core => { c with
      userspaceBufferConfig := d.userspaceBufferConfig, transferCount := d.geometry.transferCount
      graphQuantum := d.geometry.graphQuantum, outCount := d.geometry.transferCount
      feedbackCount := d.feedbackTransfers, pending := [] }) h.core
  · exact congrArg (fun s : PlaybackSession w => { s with
      format := d.pb.format, playbackTargetFrames := d.pb.playbackTargetFrames }) hplayback.symm
  · simp only [Geometry.mk.injEq]
    exact ⟨trivial, trivial, trivial, hlimit, trivial, trivial, hpackets, hframes⟩

end Driver

end UacDriver

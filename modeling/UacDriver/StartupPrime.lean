import UacDriver.BufferPolicy
import UacDriver.Lifecycle
import UacDriver.Ledger
import UacDriver.Buffers
import Mathlib.Algebra.BigOperators.Ring.List

/-!
# The startup prime covers the initial packets

`submitIsoPump` fills the initial packets only when the ring holds `startupPrimeFrames_` frames. Three functions
write that number, and the packet plan is made by a fourth computation. `Startup` is the driver before playback with
the stored packet rate and the capture terms; a history is any list of `StartupAct`. What carries the result is
`Startup.Primed`: the plan holds `exactInitialPacketFrames_` frames and the prime is at least that. Every step keeps
it but two: a plan that is longer than the largest prime `startIsoPump` stores, and a rejected configuration, for
which the prime is zero.
-/

namespace UacDriver

open Runs

structure Startup (w : Nat) where
  drv : Driver w
  /-- `microframesPerSec_`, as the last `startIsoPump` stored it. -/
  microframesPerSec : Nat := 8000
  captureTargetFrames : Int := 0
  captureHeadroomFrames : Int := 0
  captureDeadlineSlackFrames : Int := 0
  /-- History: the last buffer configuration was rejected. -/
  rejected : Bool := false

inductive StartupAct (w : Nat) where
  | configureUserspaceBuffers (c : UserspaceBufferConfig)
  /-- `start` with the format it negotiated; an earlier pump has been stopped by then. -/
  | start (format : StreamFormat)
  /-- The capture side and its layout FIFO, as the capture pump and its completions leave them. -/
  | capture (cap : Capture w) (fifo : MetaFifo)
  | startIsoPump (maxPacket : Int) (alloc : Bool) (allocated : Nat := 0)
  | setUserspaceBufferConfig (frames : Int) (c : UserspaceBufferConfig) (periodMultiplier : Int)
  | writePcm (data : List UInt8) (frames : Int)
  | submitQuantum (accepting : Bool) (policy : Nat) (frames : Int) (packed : Option (List UInt8)) (charge : Bool)

namespace Startup

variable {w : Nat} (s : Startup w)

def negotiated : Negotiated where
  frameStride := s.drv.stride
  sampleRateHz := s.drv.pb.format.sampleRateHz
  ringBytes := s.drv.pb.ring.size.bytes
  transferCount := s.drv.geometry.transferCount
  exactInitialPacketFrames := s.drv.geometry.exactInitialPacketFrames
  playbackPacketsPerTransfer := s.drv.geometry.playbackPacketsPerTransfer
  microframesPerSec := s.microframesPerSec
  captureTransferFrames := s.drv.geometry.captureMaxFramesPerPacket * s.drv.geometry.capturePacketsPerTransfer

def storePolicy (p : BufferPolicy) : Startup w :=
  { s with
    drv := { s.drv with
      pb := { s.drv.pb with
        playbackTargetFrames := p.playbackTargetFrames.toNat
        startupPrimeFrames := p.startupPrimeFrames.toNat
        writeHeadroomFrames := p.writeHeadroomFrames.toNat }
      geometry := { s.drv.geometry with
        graphQuantum := p.graphQuantum.toNat, captureLimitFrames := p.captureLimitFrames.toNat } }
    captureTargetFrames := p.captureTargetFrames
    captureHeadroomFrames := p.captureHeadroomFrames
    captureDeadlineSlackFrames := p.captureDeadlineSlackFrames
    rejected := false }

/-- A rejected request: every term but the graph quantum is zero. -/
def rejectPolicy : Startup w :=
  { s.storePolicy ⟨s.drv.geometry.graphQuantum, 0, 0, 0, 0, 0, 0, 0⟩ with rejected := true }

def setUserspaceBufferConfig (frames : Int) (c : UserspaceBufferConfig) (periodMultiplier : Int) : Startup w :=
  match s.negotiated.resolvePolicy frames c periodMultiplier with
  | some p => s.storePolicy p
  | none => s.rejectPolicy

def step : StartupAct w → Startup w
  | .configureUserspaceBuffers c => { s with drv := (s.drv.configureUserspaceBuffers c).getD s.drv }
  | .start format => { s with drv := s.drv.freeOut.start format }
  | .capture cap fifo => { s with drv := { s.drv with cap, fifo } }
  | .startIsoPump maxPacket alloc allocated =>
    { s with
      drv := (s.drv.startIsoPump maxPacket alloc).getD (s.drv.abandonIsoPump maxPacket alloc allocated)
      microframesPerSec := s.drv.pb.format.microframesPerSec }
  | .setUserspaceBufferConfig frames c periodMultiplier => s.setUserspaceBufferConfig frames c periodMultiplier
  | .writePcm data frames => { s with drv := { s.drv with pb := (s.drv.pb.writePcm data frames).1 } }
  | .submitQuantum accepting policy frames packed charge =>
    { s with drv := { s.drv with pb := (s.drv.pb.submitQuantum accepting policy frames packed charge).1 } }

end Startup

/-! ### The fill loop drains what is planned -/

theorem Transfer.sum_lengths_of_whole {x : Transfer} {stride : Nat} (h : ∀ n ∈ x.lengths, stride ∣ n) :
    x.lengths.sum = x.descriptorFrames stride * stride := by
  rw [descriptorFrames_eq]
  generalize x.lengths = lengths at h ⊢
  induction lengths with
  | nil => simp
  | cons n rest ih =>
    have hn := Nat.div_mul_cancel (h n List.mem_cons_self)
    rw [List.sum_cons, ih fun m hm => h m (List.mem_cons_of_mem n hm), List.map_cons, List.sum_cons, Nat.add_mul, hn]

namespace Playback

variable {w : Nat}

/-- What a drain that is not short leaves alone besides the ring. -/
theorem drainRing_full (p : Playback w) {bytes : Nat} (h : bytes ≤ p.ring.used) :
    (p.drainRing bytes).2.length = bytes ∧ (p.drainRing bytes).1.ring.used = p.ring.used - bytes ∧
    (p.drainRing bytes).1.playbackShortPackets = p.playbackShortPackets := by
  have hn : p.drainCount bytes = bytes := Nat.min_eq_right h
  refine ⟨by rw [drainRing_length, hn], by rw [drainRing_used, hn], ?_⟩
  simp [drainRing, hn]

/-- With the planned bytes in the ring, the fill loop over one transfer keeps every descriptor length. -/
theorem primeTransfer_full {p : Nat} (offset : Nat) {rest : List Nat} (pb : Playback w) (x : Transfer)
    (hrest : x.lengths.drop p = rest) (hsum : rest.sum ≤ pb.ring.used) :
    let r := primeTransfer p offset rest (pb, x)
    r.2.lengths = x.lengths ∧ r.1.ring.used = pb.ring.used - rest.sum ∧
    r.1.playbackShortPackets = pb.playbackShortPackets := by
  induction rest generalizing p offset pb x with
  | nil => exact ⟨rfl, rfl, rfl⟩
  | cons bytes rest ih =>
    have hp : p < x.lengths.length := by
      by_contra hge
      rw [List.drop_of_length_le (by omega)] at hrest
      cases hrest
    rw [List.drop_eq_getElem_cons hp, List.cons.injEq] at hrest
    rw [List.sum_cons] at hsum
    obtain ⟨hlen, hused, hshort⟩ := drainRing_full pb (show bytes ≤ pb.ring.used by omega)
    -- the descriptor is set to the length it already has
    have hset : ((x.storeAt offset (pb.drainRing bytes).2).setLength p (pb.drainRing bytes).2.length).lengths =
        x.lengths := by
      rw [Transfer.lengths_setLength, Transfer.lengths_storeAt, hlen, ← hrest.1]
      exact List.set_getElem_self hp
    obtain ⟨h₁, h₂, h₃⟩ := ih (p := p + 1) (offset + bytes) (pb.drainRing bytes).1
      ((x.storeAt offset (pb.drainRing bytes).2).setLength p (pb.drainRing bytes).2.length)
      (by rw [hset]; exact hrest.2) (by omega)
    refine ⟨h₁.trans hset, h₂.trans ?_, h₃.trans hshort⟩
    rw [hused, List.sum_cons]
    omega

end Playback

namespace Driver

variable {w : Nat} {d d' : Driver w}

def plannedBytes (d : Driver w) (is : List Nat) : Nat := (is.map fun i => (d.transfers i).lengths.sum).sum

/-- With the plan of all transfers in the ring, the fill loop keeps every descriptor and makes no short drain. -/
theorem primeOut_full (is : List Nat) (hsum : d.plannedBytes is ≤ d.pb.ring.used) :
    let filled := is.foldl primeOut d
    (∀ i, (filled.transfers i).lengths = (d.transfers i).lengths) ∧
    filled.pb.playbackShortPackets = d.pb.playbackShortPackets := by
  induction is generalizing d with
  | nil => exact ⟨fun _ => rfl, rfl⟩
  | cons i is ih =>
    simp only [plannedBytes, List.map_cons, List.sum_cons] at hsum
    obtain ⟨hlen, hused, hshort⟩ := Playback.primeTransfer_full (p := 0) 0 d.pb (d.transfers i)
      List.drop_zero (by omega)
    have hsame : ∀ k, ((d.primeOut i).transfers k).lengths = (d.transfers k).lengths := by
      intro k
      rcases eq_or_ne k i with rfl | hk
      · simp only [primeOut, Function.update_self]; exact hlen
      · simp only [primeOut, Function.update_of_ne hk]
    obtain ⟨h₁, h₂⟩ := ih (d := d.primeOut i) (by
      have hrest : (d.primeOut i).plannedBytes is = d.plannedBytes is := by simp only [plannedBytes, hsame]
      have hleft : (d.primeOut i).pb.ring.used = d.pb.ring.used - (d.transfers i).lengths.sum := hused
      rw [hrest, hleft, plannedBytes]
      omega)
    exact ⟨fun k => (h₁ k).trans (hsame k), h₂.trans hshort⟩

/-- The submission loop moves no descriptor and drains nothing. -/
theorem submitFirst_descriptors {ok : Xfer → Bool} {lengths : Xfer → List Nat} {x : Xfer}
    (he : d.submitFirst ok lengths x = some d') :
    d'.transfers = d.transfers ∧ d'.pb.playbackShortPackets = d.pb.playbackShortPackets := by
  unfold submitFirst at he
  split at he
  · cases x <;> cases he <;> exact ⟨rfl, rfl⟩
  · cases he

theorem startPlayback_full {ok : Xfer → Bool} (he : d.startPlayback ok = some d')
    (hsum : d.plannedBytes (List.range d.outCount) ≤ d.pb.ring.used) :
    (∀ i, (d'.transfers i).lengths = (d.transfers i).lengths) ∧
    d'.pb.playbackShortPackets = d.pb.playbackShortPackets := by
  unfold startPlayback at he
  obtain ⟨-, he⟩ := Option.ite_none_left_eq_some.1 he
  unfold submitIsoPump at he
  obtain ⟨-, he⟩ := Option.ite_none_left_eq_some.1 he
  obtain ⟨-, he⟩ := Option.ite_none_left_eq_some.1 he
  obtain ⟨dₙ, hloop, rfl⟩ := Option.map_eq_some_iff.1 he
  obtain ⟨h₁, h₂⟩ := primeOut_full (d := { d with pb := { d.pb with playbackStarted := true } })
    (List.range d.outCount) hsum
  have hsub := foldlM_rule (P := fun _ (e : Driver w) =>
      (∀ i, (e.transfers i).lengths = (d.transfers i).lengths) ∧
      e.pb.playbackShortPackets = d.pb.playbackShortPackets)
    (fun x xs e e' hP hstep => ?_) ⟨h₁, h₂⟩ hloop
  · exact hsub
  · obtain ⟨ht, hs⟩ := submitFirst_descriptors hstep
    rw [ht, hs]
    exact hP

/-! ### The plan of `startIsoPump` -/

theorem sum_take_chunks (plan : List Nat) (packets count : Nat) :
    ((List.range count).map fun t => ((plan.drop (t * packets)).take packets).sum).sum =
      (plan.take (count * packets)).sum := by
  induction count with
  | zero => simp
  | succ count ih =>
    rw [List.range_succ, List.map_append, List.sum_append, ih, Nat.succ_mul, List.take_add, List.sum_append]
    simp

theorem descriptorFrames_planned {plan : List Nat} {packets stride maxBytes t : Nat} (hstride : 0 < stride) :
    (Transfer.planned plan packets stride maxBytes t).descriptorFrames stride =
      ((plan.drop (t * packets)).take packets).sum := by
  rw [Transfer.descriptorFrames_eq]
  simp only [Transfer.lengths, Transfer.planned, List.map_map]
  congr 1
  conv_rhs => rw [← List.map_id ((plan.drop (t * packets)).take packets)]
  refine List.map_congr_left fun frames _ => ?_
  exact Nat.mul_div_cancel frames hstride

/-- The frames of the packet plan that `startIsoPump` makes: the scheduler's cadence, or the capture layout. -/
def plannedFrames (d : Driver w) (maxPacket : Int) : Nat :=
  let f := d.pb.format
  let rate := f.microframesPerSec
  let nominalMaxFrames := f.sampleRateHz / rate + if 0 < f.sampleRateHz % rate then 1 else 0
  let maxFramesPerPacket := min (maxPacket.toNat / d.stride) (nominalMaxFrames + 1)
  let nominal := (RationalPacketScheduler.reset (UInt32.ofNat f.sampleRateHz) (UInt32.ofNat rate)).nextN
    (d.geometry.transferCount * d.userspaceBufferConfig.packetsPerTransferAt rate)
  ((d.initialPlan maxFramesPerPacket nominal.1).map fun r => r.1.sum).getD 0

/-- The largest prime that `startIsoPump` stores. -/
def maxPrime (d : Driver w) : Nat := kPlaybackRingBytes / max 1 d.stride - d.geometry.graphQuantum

theorem startIsoPump_plan {maxPacket : Int} {alloc : Bool} (he : d.startIsoPump maxPacket alloc = some d') :
    d'.stride = d.stride ∧ d'.geometry.exactInitialPacketFrames = d.plannedFrames maxPacket ∧
    d'.geometry.exactInitialPacketFrames = ((List.range d'.outCount).map d'.outFrames).sum ∧
    (∀ i, ∀ n ∈ (d'.transfers i).lengths, d'.stride ∣ n) ∧
    d'.pb.startupPrimeFrames =
      startupPlaybackPrimeFrames d.maxPrime (d.plannedFrames maxPacket) d.pb.playbackTargetFrames := by
  unfold startIsoPump at he
  obtain ⟨hc, he⟩ := Option.ite_none_left_eq_some.1 he
  obtain ⟨⟨plan, fifo⟩, hplan, rfl⟩ := Option.map_eq_some_iff.1 he
  have hstride : 0 < d.stride := by
    rw [not_or] at hc
    exact Nat.pos_of_ne_zero hc.1
  have hsum : ((List.range d.geometry.transferCount).map fun t =>
      (Transfer.planned plan (d.userspaceBufferConfig.packetsPerTransferAt d.pb.format.microframesPerSec) d.stride
        (min (maxPacket.toNat / d.stride) (d.pb.format.sampleRateHz / d.pb.format.microframesPerSec +
          (if 0 < d.pb.format.sampleRateHz % d.pb.format.microframesPerSec then 1 else 0) + 1) * d.stride)
        t).descriptorFrames d.stride).sum = d.plannedFrames maxPacket := by
    have hlen := initialPlan_length hplan
    rw [RationalPacketScheduler.nextN_length] at hlen
    simp only [descriptorFrames_planned hstride, sum_take_chunks]
    rw [List.take_of_length_le hlen.le, plannedFrames]
    simp only [hplan, Option.map_some, Option.getD_some]
  refine ⟨rfl, hsum, rfl, ?_, ?_⟩
  · intro i n hn
    simp only [Transfer.lengths, Transfer.planned, List.map_map, List.mem_map] at hn
    obtain ⟨frames, -, rfl⟩ := hn
    exact Nat.dvd_mul_left ..
  · exact congrArg (fun n => startupPlaybackPrimeFrames d.maxPrime n d.pb.playbackTargetFrames) hsum

/-- A start that returns true has found the prime in the ring. -/
theorem startPlayback_prime {ok : Xfer → Bool} (he : d.startPlayback ok = some d') :
    d.pb.startupPrimeFrames ≤ d.pb.bufferedFrames := by
  unfold startPlayback at he
  obtain ⟨-, he⟩ := Option.ite_none_left_eq_some.1 he
  unfold submitIsoPump at he
  obtain ⟨-, he⟩ := Option.ite_none_left_eq_some.1 he
  obtain ⟨hc, -⟩ := Option.ite_none_left_eq_some.1 he
  rw [not_or] at hc
  exact Nat.le_of_not_lt hc.2

end Driver

namespace Playback

variable {w : Nat} {p : Playback w}

/-- What the producer's calls leave alone of the prime check: the frame size and the prime. -/
def primeSide (p : Playback w) : Nat × Nat := (p.stride, p.startupPrimeFrames)

theorem preparePlaybackWrite_primeSide (frames : Int) : (p.preparePlaybackWrite frames).1.primeSide = p.primeSide := by
  unfold preparePlaybackWrite; split
  · rfl
  · dsimp only; split <;> rfl

theorem commitPlaybackWrite_primeSide (region : PlaybackWriteRegion w) :
    (p.commitPlaybackWrite region).primeSide = p.primeSide := by
  unfold commitPlaybackWrite; split <;> rfl

theorem takePlaybackCredit_primeSide (frames : Int) : (p.takePlaybackCredit frames).1.primeSide = p.primeSide := by
  unfold takePlaybackCredit; split
  · rfl
  split
  · rfl
  split <;> rfl

theorem writePcm_primeSide (data : List UInt8) (frames : Int) : (p.writePcm data frames).1.primeSide = p.primeSide := by
  unfold writePcm; split
  · rfl
  · exact (commitPlaybackWrite_primeSide _).trans (preparePlaybackWrite_primeSide frames)

theorem submitQuantum_primeSide (accepting : Bool) (policy : Nat) (frames : Int) (packed : Option (List UInt8))
    (charge : Bool) : (p.submitQuantum accepting policy frames packed charge).1.primeSide = p.primeSide := by
  have hpaid : ∀ p₂ : Playback w, (p₂ = (p.preparePlaybackWrite frames).1 ∨ charge = true ∧ policy = 1 ∧
      p₂ = ((p.preparePlaybackWrite frames).1.takePlaybackCredit frames).1) → p₂.primeSide = p.primeSide := by
    rintro p₂ (rfl | ⟨-, -, rfl⟩)
    · exact preparePlaybackWrite_primeSide frames
    · exact (takePlaybackCredit_primeSide frames).trans (preparePlaybackWrite_primeSide frames)
  refine submitQuantum_rule (P := fun p' => p'.primeSide = p.primeSide) rfl (preparePlaybackWrite_primeSide frames)
    hpaid fun p₂ bytes _ _ h => (commitPlaybackWrite_primeSide _).trans (hpaid p₂ ?_)
  rcases h with h | ⟨h₁, h₂, h₃, -⟩
  exacts [.inl h, .inr ⟨h₁, h₂, h₃⟩]

end Playback

/-! ### Histories before playback -/

namespace Startup

variable {w : Nat} {s : Startup w}

/-- The initial packets are planned in whole frames, the prime covers the plan, and no rejection is in force. -/
structure Primed (s : Startup w) : Prop where
  whole : ∀ i < s.drv.outCount, ∀ n ∈ (s.drv.transfers i).lengths, s.drv.stride ∣ n
  plan : ((List.range s.drv.outCount).map s.drv.outFrames).sum ≤ s.drv.geometry.exactInitialPacketFrames
  prime : s.drv.geometry.exactInitialPacketFrames ≤ s.drv.pb.startupPrimeFrames
  accepted : s.rejected = false

/-- The steps that keep the prime above the plan: a plan within the largest prime, a request that is accepted. -/
def Fits (s : Startup w) : StartupAct w → Prop
  | .startIsoPump maxPacket _ _ => s.drv.plannedFrames maxPacket ≤ s.drv.maxPrime
  | .setUserspaceBufferConfig frames c periodMultiplier =>
    (s.negotiated.resolvePolicy frames c periodMultiplier).isSome
  | _ => True

/-- The plan and the prime, and what the plan is counted in. -/
def planSide (s : Startup w) : Nat × (Nat → Transfer) × Nat × Nat × Nat × Bool :=
  (s.drv.outCount, s.drv.transfers, s.drv.stride, s.drv.geometry.exactInitialPacketFrames,
    s.drv.pb.startupPrimeFrames, s.rejected)

namespace Primed

theorem congr {s' : Startup w} (h : s.Primed) (he : s'.planSide = s.planSide) : s'.Primed := by
  simp only [planSide, Prod.mk.injEq] at he
  obtain ⟨h₁, h₂, h₃, h₄, h₅, h₆⟩ := he
  have hout : s'.drv.outFrames = s.drv.outFrames := by
    funext i
    rw [Driver.outFrames, Driver.outFrames, h₂, h₃]
  refine ⟨?_, ?_, ?_, h₆.trans h.accepted⟩
  · rw [h₁, h₂, h₃]; exact h.whole
  · rw [h₁, h₄, hout]; exact h.plan
  · rw [h₄, h₅]; exact h.prime

/-- Without OUT transfers only the prime is left to keep. -/
theorem empty {s' : Startup w} (h : s.Primed) (hcount : s'.drv.outCount = 0)
    (hprime : s'.drv.geometry.exactInitialPacketFrames ≤ s'.drv.pb.startupPrimeFrames) (hrej : s'.rejected = s.rejected) :
    s'.Primed := by
  refine ⟨?_, ?_, hprime, hrej.trans h.accepted⟩
  · rw [hcount]; intro i hi; exact absurd hi (Nat.not_lt_zero i)
  · rw [hcount]; exact Nat.zero_le _

theorem configureUserspaceBuffers (h : s.Primed) (c : UserspaceBufferConfig) :
    (s.step (.configureUserspaceBuffers c)).Primed := by
  refine h.congr ?_
  cases hc : s.drv.configureUserspaceBuffers c with
  | none => simp only [step, hc, Option.getD_none]
  | some d' =>
    simp only [step, hc, Option.getD_some]
    unfold Driver.configureUserspaceBuffers at hc
    obtain ⟨pb, hpb, rfl⟩ := Option.map_eq_some_iff.1 hc
    unfold Playback.configureUserspaceBuffers at hpb
    obtain ⟨-, hpb⟩ := Option.ite_none_left_eq_some.1 hpb
    obtain ⟨-, hpb⟩ := Option.ite_none_left_eq_some.1 hpb
    obtain ⟨z, -, rfl⟩ := Option.map_eq_some_iff.1 hpb
    rfl

theorem startIsoPump (h : s.Primed) {maxPacket : Int} (alloc : Bool) (allocated : Nat)
    (hfit : s.drv.plannedFrames maxPacket ≤ s.drv.maxPrime) :
    (s.step (.startIsoPump maxPacket alloc allocated)).Primed := by
  have hcovers {alloc : Bool} {d' : Driver w} (hd : s.drv.startIsoPump maxPacket alloc = some d') :
      d'.geometry.exactInitialPacketFrames ≤ d'.pb.startupPrimeFrames := by
    obtain ⟨-, hexact, -, -, hprime⟩ := Driver.startIsoPump_plan hd
    rw [hprime, hexact, startupPlaybackPrimeFrames]
    split <;> omega
  cases hd : s.drv.startIsoPump maxPacket alloc with
  | none =>
    simp only [step, hd, Option.getD_none]
    unfold Driver.abandonIsoPump
    split
    · exact h.congr rfl
    split
    · exact h.empty rfl h.prime rfl
    split
    · exact h.empty rfl h.prime rfl
    · rename_i prepared hprepared
      have hprime := hcovers hprepared
      exact h.empty rfl hprime rfl
  | some d' =>
    obtain ⟨-, -, hplan, hwhole, -⟩ := Driver.startIsoPump_plan hd
    simp only [step, hd, Option.getD_some]
    exact ⟨fun i _ => hwhole i, hplan.ge, hcovers hd, h.accepted⟩

theorem setUserspaceBufferConfig (h : s.Primed) {frames periodMultiplier : Int} {c : UserspaceBufferConfig}
    (hacc : (s.negotiated.resolvePolicy frames c periodMultiplier).isSome) :
    (s.step (.setUserspaceBufferConfig frames c periodMultiplier)).Primed := by
  obtain ⟨p, hp⟩ := Option.isSome_iff_exists.1 hacc
  have hprime := (Negotiated.prime_of_resolvePolicy hp).1
  simp only [step, Startup.setUserspaceBufferConfig, hp]
  refine ⟨h.whole, h.plan, ?_, rfl⟩
  show s.drv.geometry.exactInitialPacketFrames ≤ p.startupPrimeFrames.toNat
  have : s.negotiated.exactInitialPacketFrames = s.drv.geometry.exactInitialPacketFrames := rfl
  omega

theorem write {pb : Playback w} (h : s.Primed) (hpb : pb.primeSide = s.drv.pb.primeSide) :
    Primed { s with drv := { s.drv with pb } } := by
  simp only [Playback.primeSide, Prod.mk.injEq] at hpb
  refine h.congr ?_
  simp only [planSide, Driver.stride, hpb]

theorem step (h : s.Primed) (a : StartupAct w) (ha : s.Fits a) : (s.step a).Primed := by
  cases a with
  | configureUserspaceBuffers c => exact h.configureUserspaceBuffers c
  | start format => exact h.empty rfl h.prime rfl
  | capture cap fifo => exact h.congr rfl
  | startIsoPump maxPacket alloc allocated => exact h.startIsoPump alloc allocated ha
  | setUserspaceBufferConfig frames c periodMultiplier => exact h.setUserspaceBufferConfig ha
  | writePcm data frames => exact h.write (Playback.writePcm_primeSide data frames)
  | submitQuantum accepting policy frames packed charge =>
    exact h.write (Playback.submitQuantum_primeSide accepting policy frames packed charge)

/-- The plan fits the bytes in the ring once the prime has been found there. -/
theorem plannedBytes_le (h : s.Primed)
    (hbuf : s.drv.pb.startupPrimeFrames ≤ s.drv.pb.bufferedFrames) :
    s.drv.plannedBytes (List.range s.drv.outCount) ≤ s.drv.pb.ring.used := by
  have hbytes : s.drv.plannedBytes (List.range s.drv.outCount) =
      ((List.range s.drv.outCount).map s.drv.outFrames).sum * s.drv.stride := by
    rw [Driver.plannedBytes, ← List.sum_map_mul_right]
    refine congrArg List.sum (List.map_congr_left fun i hi => ?_)
    exact Transfer.sum_lengths_of_whole (h.whole i (List.mem_range.1 hi))
  have hframes : ((List.range s.drv.outCount).map s.drv.outFrames).sum ≤ s.drv.pb.ring.used / s.drv.stride := by
    rw [Playback.bufferedFrames_eq] at hbuf
    exact (h.plan.trans h.prime).trans hbuf
  rw [hbytes]
  exact (Nat.mul_le_mul_right _ hframes).trans (Nat.div_mul_le_self _ _)

end Primed

def constructed (z : RingSize w) : Startup w := { drv := Driver.constructed z }

theorem primed_constructed (z : RingSize w) : (constructed z).Primed := by
  refine ⟨fun i hi => absurd hi (Nat.not_lt_zero i), Nat.zero_le _, Nat.zero_le _, rfl⟩

/-- A loop of submissions that libusb all accepts comes to its end. -/
theorem submitAll_isSome (lengths : Xfer → List Nat) (xs : List Xfer) (d : Driver w) :
    (xs.foldlM (fun d' x => Driver.submitFirst d' (fun _ => true) lengths x) d).isSome := by
  induction xs generalizing d with
  | nil => rfl
  | cons x xs ih =>
    cases x <;> exact ih _

/-- With the prime in the ring, a start on a negotiated stream succeeds. -/
theorem startPlayback_isSome {d : Driver w} (hstride : d.stride ≠ 0)
    (hprime : d.pb.startupPrimeFrames ≤ d.pb.bufferedFrames)
    (hstarted : d.pb.playbackStarted = false) (hstop : d.stopRequested = false) :
    (d.startPlayback fun _ => true).isSome := by
  unfold Driver.startPlayback
  rw [if_neg (by simp [hstarted])]
  unfold Driver.submitIsoPump
  rw [if_neg (by simp [hstop]), if_neg ?_]
  · rw [Option.isSome_map]
    exact submitAll_isSome _ _ _
  · rintro (h | h)
    · exact hstride h
    · exact Nat.not_lt.2 hprime h

theorem setUserspaceBufferConfig_of_none {frames periodMultiplier : Int} {c : UserspaceBufferConfig}
    (h : s.negotiated.resolvePolicy frames c periodMultiplier = none) :
    s.setUserspaceBufferConfig frames c periodMultiplier = s.rejectPolicy := by
  simp only [setUserspaceBufferConfig, h]

end Startup

/-- In every history whose packet plans fit the largest prime and whose buffer configurations are accepted, a
`startPlayback` that returns true found the whole plan in the ring and drained every initial packet to its planned
length. Where a step does not fit: after a rejected configuration `startPlayback` succeeds with no prime at all, and
a plan beyond the largest prime leaves the prime below the plan. -/
theorem startup_prime_covers_packets {w : Nat} (z : RingSize w) :
    (∀ as : List (StartupAct w), Meets Startup.step Startup.Fits (Startup.constructed z) as →
      let s := run Startup.step (Startup.constructed z) as
      ∀ ok d', s.drv.startPlayback ok = some d' →
        s.rejected = false ∧ s.drv.geometry.exactInitialPacketFrames ≤ s.drv.pb.bufferedFrames ∧
        (∀ i, (d'.transfers i).lengths = (s.drv.transfers i).lengths) ∧
        d'.pb.playbackShortPackets = s.drv.pb.playbackShortPackets) ∧
    (∀ (s : Startup w) (frames : Int) (c : UserspaceBufferConfig) (periodMultiplier : Int),
      ¬ s.Fits (.setUserspaceBufferConfig frames c periodMultiplier) → s.drv.stride ≠ 0 →
      s.drv.pb.playbackStarted = false → s.drv.stopRequested = false →
      let s' := s.step (.setUserspaceBufferConfig frames c periodMultiplier)
      s'.rejected = true ∧ (s'.drv.startPlayback fun _ => true).isSome) ∧
    (∀ (s : Startup w) (maxPacket : Int) (alloc : Bool) (allocated : Nat),
      ¬ s.Fits (.startIsoPump maxPacket alloc allocated) → (s.drv.startIsoPump maxPacket alloc).isSome →
      let s' := s.step (.startIsoPump maxPacket alloc allocated)
      s'.drv.pb.startupPrimeFrames < s'.drv.geometry.exactInitialPacketFrames) := by
  refine ⟨fun as has => ?_, fun s frames c m hrej hstride hstarted hstop => ?_, fun s maxPacket alloc _ hlong hsome => ?_⟩
  · intro s ok d' he
    have h : s.Primed := has.invariant (fun s a ha hs => hs.step a ha) (Startup.primed_constructed z)
    have hbuf := Driver.startPlayback_prime he
    obtain ⟨hlen, hshort⟩ := Driver.startPlayback_full he (h.plannedBytes_le hbuf)
    exact ⟨h.accepted, h.prime.trans hbuf, hlen, hshort⟩
  · have hnone : s.negotiated.resolvePolicy frames c m = none := Option.not_isSome_iff_eq_none.1 hrej
    simp only [Startup.step, Startup.setUserspaceBufferConfig_of_none hnone]
    exact ⟨rfl, Startup.startPlayback_isSome (d := s.rejectPolicy.drv) hstride (Nat.zero_le _) hstarted hstop⟩
  · obtain ⟨d', hd⟩ := Option.isSome_iff_exists.1 hsome
    obtain ⟨-, hexact, -, -, hprime⟩ := Driver.startIsoPump_plan hd
    have hlong' : s.drv.maxPrime < s.drv.plannedFrames maxPacket := Nat.lt_of_not_le hlong
    simp only [Startup.step, hd, Option.getD_some]
    rw [hprime, hexact, startupPlaybackPrimeFrames]
    split <;> omega

/-- Full-speed stereo, 16-bit, 48 kHz: four initial packets of 48 frames each. -/
def fullSpeedStereo : StreamFormat :=
  { sampleRateHz := 48000, bytesPerSample := 2, channels := 2, isHighSpeed := false, bInterval := 1 }

def defaultRing : RingSize 64 := ⟨kPlaybackRingBytes, ⟨16, rfl⟩, by decide⟩

/-- A target beyond the ring is rejected; `startPlayback` then returns true on an empty ring and submits an empty
packet where 48 frames were planned. -/
theorem rejected_config_starts_playback :
    let s := run Startup.step (Startup.constructed defaultRing)
      [.start fullSpeedStereo, .startIsoPump 192 true, .setUserspaceBufferConfig 16 { playbackTargetFrames := 20000 } 3]
    s.rejected = true ∧ s.drv.geometry.exactInitialPacketFrames = 192 ∧ s.drv.pb.bufferedFrames = 0 ∧
    (s.drv.transfers 0).lengths = [192] ∧
    (s.drv.startPlayback fun _ => true).map (fun d' => (d'.transfers 0).lengths) = some [0] := by
  decide

/-- A default request, the prime of 192 frames written, and a start that drains all four packets in full. -/
theorem startup_prime_covers_packets_stereo :
    let as : List (StartupAct 64) :=
      [.start fullSpeedStereo, .startIsoPump 192 true, .setUserspaceBufferConfig 16 {} 3,
        .writePcm (List.replicate 768 7) 192]
    let s := run Startup.step (Startup.constructed defaultRing) as
    s.drv.pb.startupPrimeFrames = 192 ∧
    ∃ d', s.drv.startPlayback (fun _ => true) = some d' ∧ (d'.transfers 3).lengths = [192] := by
  intro as s
  have has : Meets Startup.step Startup.Fits (Startup.constructed defaultRing) as := by
    refine ⟨trivial, ?_, ?_, trivial, trivial⟩
    · show _ ≤ _
      decide
    · show Option.isSome _ = true
      decide
  have hs : (s.drv.startPlayback fun _ => true).isSome := by decide
  obtain ⟨d', hd⟩ := Option.isSome_iff_exists.1 hs
  refine ⟨by decide, d', hd, ?_⟩
  rw [((startup_prime_covers_packets defaultRing).1 as has _ d' hd).2.2.1 3]
  decide

end UacDriver

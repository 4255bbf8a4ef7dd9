import UacDriver.Pump
import UacDriver.Rotation

/-!
# Frame conservation and the credit ledger

Every frame written is in the ring, in a transfer that libusb owns, or completed; every frame drained is in a
transfer or completed; every completed frame is credit until it is charged. `Balanced` says this of the
playback counters while `held` frames are out of the ring but not yet queued, which is the state between a
refill and its submission. `Ledger` adds the transfers: what is queued is what the transfers owned by libusb
carry, but for the one whose callback is running. Each primitive moves frames from one term to the next.
-/

namespace UacDriver

open Circular Cursor Runs

theorem Transfer.descriptorFrames_eq (x : Transfer) (stride : Nat) :
    x.descriptorFrames stride = (x.lengths.map (· / stride)).sum := by
  unfold descriptorFrames
  split
  · rename_i h
    rw [h]
    simp
  · rfl

namespace Playback

variable {w : Nat} {p : Playback w}

def creditTaken (p : Playback w) (frames : Int) : Int :=
  if 0 < frames ∧ p.playbackStarted ∧ (p.takePlaybackCredit frames).2 then frames else 0

theorem creditTaken_eq (frames : Int) : p.creditTaken frames =
    if 0 < frames ∧ p.playbackStarted ∧ p.playbackCredit - frames ≥ p.creditFloor then frames else 0 := by
  unfold creditTaken takePlaybackCredit
  by_cases hf : frames ≤ 0
  · rw [if_neg (by omega), if_neg (by omega)]
  by_cases hs : p.playbackStarted = true <;> by_cases hc : p.playbackCredit - frames ≥ p.creditFloor <;>
    simp [hf, hs, hc]

def creditCharged (p : Playback w) (frames : Int) : Int := if 0 < frames ∧ p.playbackStarted then frames else 0

/-- The credit a call of `submitQuantum` takes: that of its `takePlaybackCredit`, if it gets that far. -/
def quantumCharge (p : Playback w) (accepting : Bool) (policy : Nat) (frames : Int) (chargeCredit : Bool) : Int :=
  if 0 < frames ∧ frames ≤ kMaxFramesPerWrite ∧ accepting ∧ frames ≤ p.writableFrames ∧
      (p.preparePlaybackWrite frames).2.frames = frames ∧ chargeCredit ∧ policy = 1 then
    p.creditTaken frames
  else 0

structure Balanced (p : Playback w) (held completed : Nat) (charged : Int) : Prop where
  used_le : p.ring.used ≤ p.ring.size.bytes
  aligned : p.stride ∣ p.ring.used
  written : p.writtenFrames = p.bufferedFrames + held + p.queuedOutFrames + completed
  played : p.playedFrames = held + p.queuedOutFrames + completed
  credit : p.playbackCredit = completed - charged

theorem bufferedFrames_eq : p.bufferedFrames = p.ring.used / p.stride := by
  unfold bufferedFrames
  split
  · rename_i h; rw [h, Nat.div_zero]
  · rfl

namespace Balanced

variable {held completed : Nat} {charged : Int}

theorem congr (h : p.Balanced held completed charged) {p' : Playback w} (hring : p'.ring = p.ring)
    (hformat : p'.format = p.format) (hwritten : p'.writtenFrames = p.writtenFrames)
    (hplayed : p'.playedFrames = p.playedFrames) (hqueued : p'.queuedOutFrames = p.queuedOutFrames)
    (hcredit : p'.playbackCredit = p.playbackCredit) : p'.Balanced held completed charged := by
  have hstride : p'.stride = p.stride := congrArg StreamFormat.frameStride hformat
  have hbuf : p'.bufferedFrames = p.bufferedFrames := by rw [bufferedFrames_eq, bufferedFrames_eq, hring, hstride]
  refine ⟨?_, ?_, ?_, ?_, ?_⟩
  · rw [hring]; exact h.used_le
  · rw [hring, hstride]; exact h.aligned
  · rw [hwritten, hbuf, hqueued]; exact h.written
  · rw [hplayed, hqueued]; exact h.played
  · rw [hcredit]; exact h.credit

/-- A drain of whole frames takes whole frames out of the ring; they are held until queued. -/
theorem drainRing (h : p.Balanced held completed charged) {bytes : Nat} (hb : p.stride ∣ bytes) :
    p.stride ∣ p.drainCount bytes ∧
    (p.drainRing bytes).1.Balanced (held + p.drainCount bytes / p.stride) completed charged := by
  have hn : p.stride ∣ p.drainCount bytes := by
    unfold drainCount
    rcases Nat.le_total p.ring.used bytes with hle | hle
    · rw [Nat.min_eq_left hle]; exact h.aligned
    · rw [Nat.min_eq_right hle]; exact hb
  have hle := drainCount_le_used (p := p) bytes
  have hused := drainRing_used (p := p) bytes
  have hbuf : p.bufferedFrames = (p.drainRing bytes).1.bufferedFrames + p.drainCount bytes / p.stride := by
    rw [bufferedFrames_eq, bufferedFrames_eq, hused, drainRing_stride, ← Nat.add_div_of_dvd_left hn]
    congr 1; omega
  refine ⟨hn, ?_, ?_, ?_, ?_, h.credit⟩
  · rw [hused, drainRing_size]
    have := h.used_le; omega
  · rw [hused, drainRing_stride]; exact Nat.dvd_sub h.aligned hn
  · show p.writtenFrames = (p.drainRing bytes).1.bufferedFrames + _ + p.queuedOutFrames + completed
    have := h.written; omega
  · show (if 0 < p.stride then p.playedFrames + p.drainCount bytes / p.stride else p.playedFrames) = _
    have hpl := h.played
    show _ = held + p.drainCount bytes / p.stride + p.queuedOutFrames + completed
    split
    · omega
    · rename_i h0
      rw [Nat.eq_zero_of_not_pos h0, Nat.div_zero]; omega

theorem packetDrain (h : p.Balanced held completed charged) (i frames : Nat) :
    p.stride ∣ (packetDrain drainPacket i (frames * p.stride) p).2.length ∧
    (packetDrain drainPacket i (frames * p.stride) p).1.Balanced
      (held + (packetDrain drainPacket i (frames * p.stride) p).2.length / p.stride) completed charged := by
  unfold UacDriver.packetDrain
  split
  · simp only [drainPacket, drainRing_length]
    exact h.drainRing (Nat.dvd_mul_left ..)
  · simpa using h

theorem drainAll {stride : Nat} (hs : p.stride = stride) (h : p.Balanced held completed charged) (i : Nat)
    (plan : List Nat) :
    let r := drainAll drainPacket stride i plan p
    (∀ c ∈ r.2, stride ∣ c.length) ∧
    r.1.Balanced (held + (r.2.map fun c => c.length / stride).sum) completed charged := by
  induction plan generalizing i p held with
  | nil => exact ⟨nofun, h⟩
  | cons frames plan ih =>
    obtain ⟨hd, hp⟩ := h.packetDrain i frames
    rw [hs] at hd hp
    have hs' : (UacDriver.packetDrain drainPacket i (frames * stride) p).1.stride = stride := by
      unfold UacDriver.packetDrain; split <;> exact hs
    obtain ⟨h₁, h₂⟩ := ih hs' hp (i + 1)
    refine ⟨fun c hc => ?_, ?_⟩
    · rcases List.mem_cons.1 hc with rfl | hc
      · exact hd
      · exact h₁ c hc
    · simp only [UacDriver.drainAll, List.map_cons, List.sum_cons, ← Nat.add_assoc]
      exact h₂

theorem refill {x : Transfer} {plan : List Nat} (h : p.Balanced held completed charged)
    (hp : plan.length = x.numIsoPackets) :
    let r := UacDriver.refill drainPacket p.stride 0 plan (p, x)
    (∀ n ∈ r.2.lengths, p.stride ∣ n) ∧
    r.1.Balanced (held + r.2.descriptorFrames p.stride) completed charged := by
  obtain ⟨h₁, h₂⟩ := h.drainAll rfl 0 plan
  dsimp only at h₁ h₂ ⊢
  have hlens := refill_lengths drainPacket p.stride (show plan.length = (p, x).2.numIsoPackets from hp)
  rw [refill_fst, Transfer.descriptorFrames_eq, hlens, List.map_map]
  refine ⟨fun n hn => ?_, h₂⟩
  obtain ⟨c, hc, rfl⟩ := List.mem_map.1 hn
  exact h₁ c hc

theorem primeTransfer {x : Transfer} {stride i : Nat} (offset : Nat) {rest : List Nat} (hs : p.stride = stride)
    (h : p.Balanced held completed charged) (hi : i + rest.length = x.numIsoPackets) (hrest : ∀ n ∈ rest, stride ∣ n) :
    let r := Playback.primeTransfer i offset rest (p, x)
    ∃ drained, r.2.lengths = x.lengths.take i ++ drained ∧ (∀ n ∈ drained, stride ∣ n) ∧ r.1.stride = stride ∧
      r.1.Balanced (held + (drained.map (· / stride)).sum) completed charged := by
  induction rest generalizing p x held i offset with
  | nil =>
    refine ⟨[], ?_, nofun, hs, h⟩
    rw [List.append_nil, List.take_of_length_le (by simpa using hi.ge)]
    rfl
  | cons bytes rest ih =>
    obtain ⟨hd, hb⟩ := h.drainRing (hs ▸ hrest bytes List.mem_cons_self)
    rw [hs] at hd hb
    have hi' : i < x.lengths.length := by simp at hi ⊢; omega
    have hs' : (p.drainRing bytes).1.stride = stride := hs
    have hi₁ : i + 1 + rest.length = ((x.storeAt offset (p.drainRing bytes).2).setLength i
        (p.drainRing bytes).2.length).numIsoPackets := by
      rw [Transfer.numIsoPackets_setLength]
      show i + 1 + rest.length = x.numIsoPackets
      rw [List.length_cons] at hi; omega
    obtain ⟨drained, h₁, h₂, h₃, h₄⟩ :=
      ih (offset + bytes) hs' hb hi₁ fun n hn => hrest n (List.mem_cons_of_mem _ hn)
    refine ⟨p.drainCount bytes :: drained, ?_, ?_, h₃, ?_⟩
    · dsimp only [Playback.primeTransfer] at h₁ ⊢
      rw [h₁, Transfer.lengths_setLength, Transfer.lengths_storeAt, drainRing_length,
        List.take_succ_eq_append_getElem (by simpa using hi'), List.take_set,
        List.set_eq_of_length_le (List.length_take_le ..), List.getElem_set_self, List.append_assoc,
        List.singleton_append]
    · intro n hn
      rcases List.mem_cons.1 hn with rfl | hn
      · exact hd
      · exact h₂ n hn
    · rw [List.map_cons, List.sum_cons, ← Nat.add_assoc]
      exact h₄

theorem queue {n : Nat} (h : p.Balanced (held + n) completed charged) :
    ({ p with queuedOutFrames := p.queuedOutFrames + n } : Playback w).Balanced held completed charged := by
  refine ⟨h.used_le, h.aligned, ?_, ?_, h.credit⟩
  · have hw : p.writtenFrames = p.bufferedFrames + (held + n) + p.queuedOutFrames + completed := h.written
    show p.writtenFrames = p.bufferedFrames + held + (p.queuedOutFrames + n) + completed
    omega
  · have hp : p.playedFrames = held + n + p.queuedOutFrames + completed := h.played
    show p.playedFrames = held + (p.queuedOutFrames + n) + completed
    omega

theorem complete {n : Nat} (h : p.Balanced held completed charged) (hn : n ≤ p.queuedOutFrames) :
    ({ p with queuedOutFrames := p.queuedOutFrames - n, playbackCredit := p.playbackCredit + n } :
      Playback w).Balanced held (completed + n) charged := by
  refine ⟨h.used_le, h.aligned, ?_, ?_, ?_⟩
  · have hw := h.written
    show p.writtenFrames = p.bufferedFrames + held + (p.queuedOutFrames - n) + (completed + n)
    omega
  · have hp := h.played
    show p.playedFrames = held + (p.queuedOutFrames - n) + (completed + n)
    omega
  · have hc := h.credit
    show p.playbackCredit + (n : Int) = ((completed + n : Nat) : Int) - charged
    push_cast
    omega

theorem chargePlaybackCredit (h : p.Balanced held completed charged) (frames : Int) :
    (p.chargePlaybackCredit frames).Balanced held completed (charged + p.creditCharged frames) := by
  have hc := h.credit
  unfold Playback.chargePlaybackCredit creditCharged
  split
  · rw [if_neg (by omega), Int.add_zero]; exact h
  · split
    · rename_i hs
      rw [if_neg (by simp_all), Int.add_zero]; exact h
    · rename_i hf hs
      rw [if_pos ⟨by omega, by simpa using hs⟩]
      exact ⟨h.used_le, h.aligned, h.written, h.played, by dsimp only; omega⟩

theorem takePlaybackCredit (h : p.Balanced held completed charged) (frames : Int) :
    (p.takePlaybackCredit frames).1.Balanced held completed (charged + p.creditTaken frames) := by
  have hc := h.credit
  by_cases hf : frames ≤ 0
  · have he : p.takePlaybackCredit frames = (p, true) := if_pos hf
    rw [creditTaken, he, if_neg (by omega), Int.add_zero]; exact h
  by_cases hs : p.playbackStarted = true
  · by_cases hfl : p.playbackCredit - frames ≥ p.creditFloor
    · have he : p.takePlaybackCredit frames = ({ p with playbackCredit := p.playbackCredit - frames }, true) := by
        simp [Playback.takePlaybackCredit, hf, hs, hfl]
      rw [creditTaken, he, if_pos ⟨by omega, hs, rfl⟩]
      exact ⟨h.used_le, h.aligned, h.written, h.played, by dsimp only; omega⟩
    · have he : p.takePlaybackCredit frames = (p, false) := by
        simp [Playback.takePlaybackCredit, hf, hs, hfl]
      rw [creditTaken, he, if_neg (by simp), Int.add_zero]; exact h
  · have he : p.takePlaybackCredit frames = (p, true) := by
      simp [Playback.takePlaybackCredit, hf, hs]
    rw [creditTaken, he, if_neg (by simp [hs]), Int.add_zero]; exact h

theorem preparePlaybackWrite (h : p.Balanced held completed charged) (frames : Int) :
    (p.preparePlaybackWrite frames).1.Balanced held completed charged := by
  unfold Playback.preparePlaybackWrite
  split
  · exact h
  · dsimp only
    split <;> exact h.congr rfl rfl rfl rfl rfl rfl

theorem commit (h : p.Balanced held completed charged) {region : PlaybackWriteRegion w}
    (hr : region = {} ∨ region.Fits p) (bytes : List UInt8) :
    ((p.fillRegion region bytes).commitPlaybackWrite region).Balanced held completed charged := by
  have hfill : (p.fillRegion region bytes).Balanced held completed charged := by
    refine ⟨h.used_le, h.aligned, h.written, h.played, h.credit⟩
  unfold commitPlaybackWrite
  split
  · exact hfill
  rename_i hne
  rcases hr with rfl | hr
  · exact absurd (.inl rfl) hne
  have hstride : region.frameStride = p.stride := hr.stride
  have hpos : 0 < p.stride := by omega
  have hfit : p.ring.used + region.frames * p.stride ≤ p.ring.size.bytes := hstride ▸ hr.fit
  have hused : ({ (p.fillRegion region bytes).ring with
      head := region.producerCursor + BitVec.ofNat w (region.frames * region.frameStride) } : Ring w).used =
      p.ring.used + region.frames * p.stride := by
    rw [hr.cursor, hstride]
    exact Ring.used_advanceHead (r := p.ring) hfit
  refine ⟨?_, ?_, ?_, h.played, h.credit⟩
  · rw [hused]; exact hfit
  · rw [hused]; exact Nat.dvd_add h.aligned (Nat.dvd_mul_left ..)
  · have hw := h.written
    rw [bufferedFrames_eq] at hw ⊢
    rw [hused]
    show p.writtenFrames + region.frames = (p.ring.used + region.frames * p.stride) / p.stride + held +
      p.queuedOutFrames + completed
    rw [Nat.add_mul_div_right _ _ hpos]
    omega

theorem region_fits (h : p.Balanced held completed charged) (frames : Int) {p₂ : Playback w} (hring : p₂.ring = p.ring)
    (hstride : p₂.stride = p.stride) :
    (p.preparePlaybackWrite frames).2 = {} ∨ (p.preparePlaybackWrite frames).2.Fits p₂ := by
  refine (preparePlaybackWrite_region h.used_le frames).imp_right fun ⟨hf, _⟩ => ?_
  exact ⟨hring ▸ hf.cursor, hstride ▸ hf.stride, hring ▸ hf.first, hring ▸ hf.firstBytes, hf.secondBytes,
    hring ▸ hf.fit⟩

theorem writePcm (h : p.Balanced held completed charged) (data : List UInt8) (frames : Int) :
    (p.writePcm data frames).1.Balanced held completed charged := by
  unfold Playback.writePcm
  split
  · exact h
  · exact (h.preparePlaybackWrite frames).commit (h.region_fits frames (by simp) (by simp)) data

/-- A quantum is charged what its `takePlaybackCredit` takes, and published whole or not at all. -/
theorem submitQuantum (h : p.Balanced held completed charged) (accepting : Bool) (policy : Nat) (frames : Int)
    (packed : Option (List UInt8)) (chargeCredit : Bool) :
    (p.submitQuantum accepting policy frames packed chargeCredit).1.Balanced held completed
      (charged + p.quantumCharge accepting policy frames chargeCredit) := by
  have hprep := h.preparePlaybackWrite frames
  -- what packing makes of the paid state
  have hpack : ∀ {p₂ : Playback w} {charged : Int}, p₂.Balanced held completed charged → p₂.ring = p.ring →
      p₂.stride = p.stride → ∀ bytes, ((p₂.fillRegion (p.preparePlaybackWrite frames).2 bytes).commitPlaybackWrite
        (p.preparePlaybackWrite frames).2).noteQuantumWritten.Balanced held completed charged :=
    fun hp₂ hring hstride bytes => (hp₂.commit (h.region_fits frames hring hstride) bytes).congr rfl rfl rfl rfl rfl rfl
  unfold Playback.submitQuantum quantumCharge
  by_cases hg : frames ≤ 0 ∨ frames > kMaxFramesPerWrite ∨ (!accepting) = true
  · have hno : ¬ (0 < frames ∧ frames ≤ kMaxFramesPerWrite ∧ accepting = true) := by
      rintro ⟨h₁, h₂, h₃⟩
      rcases hg with hg | hg | hg
      · omega
      · omega
      · simp [h₃] at hg
    rw [if_pos hg, if_neg fun hh => hno ⟨hh.1, hh.2.1, hh.2.2.1⟩, Int.add_zero]
    exact h
  rw [if_neg hg]
  by_cases hw : frames ≤ p.writableFrames
  swap
  · rw [if_neg hw, if_neg (fun hh => hw hh.2.2.2.1), Int.add_zero]; exact h
  rw [if_pos hw]
  dsimp only
  by_cases hfr : (p.preparePlaybackWrite frames).2.frames = frames
  swap
  · rw [if_neg hfr, if_neg (fun hh => hfr hh.2.2.2.2.1), Int.add_zero]; exact hprep
  rw [if_pos hfr]
  by_cases hch : (!chargeCredit) = true ∨ policy ≠ 1
  · rw [if_pos hch, if_neg (by rintro ⟨-, -, -, -, -, h₁, h₂⟩; rcases hch with hch | hch <;> simp_all), Int.add_zero]
    cases packed with
    | none => exact hprep
    | some bytes => exact hpack hprep (by simp) (by simp) bytes
  rw [if_neg hch]
  have hcharge : chargeCredit = true ∧ policy = 1 := by
    rw [not_or] at hch
    exact ⟨by simpa using hch.1, by simpa using hch.2⟩
  have hacc : 0 < frames ∧ frames ≤ kMaxFramesPerWrite ∧ accepting = true := by
    rw [not_or, not_or] at hg
    exact ⟨by omega, by omega, by simpa using hg.2.2⟩
  rw [if_pos ⟨hacc.1, hacc.2.1, hacc.2.2, hw, hfr, hcharge.1, hcharge.2⟩]
  -- preparing changes nothing a credit call reads
  have htaken : (p.preparePlaybackWrite frames).1.creditTaken frames = p.creditTaken frames := by
    rw [creditTaken_eq, creditTaken_eq]
    unfold Playback.preparePlaybackWrite
    split
    · rfl
    · dsimp only
      split <;> rfl
  have htake := hprep.takePlaybackCredit frames
  rw [htaken] at htake
  have hring : ((p.preparePlaybackWrite frames).1.takePlaybackCredit frames).1.ring = p.ring := by
    rw [← preparePlaybackWrite_ring (p := p) frames]
    unfold Playback.takePlaybackCredit
    split
    · rfl
    split
    · rfl
    split <;> rfl
  have hstride : ((p.preparePlaybackWrite frames).1.takePlaybackCredit frames).1.stride = p.stride :=
    congrArg (fun e => e.1.frameStride)
        ((takePlaybackCredit_eventSide frames).trans (preparePlaybackWrite_eventSide frames))
  cases hpaid : ((p.preparePlaybackWrite frames).1.takePlaybackCredit frames).2
  · exact htake
  · cases packed with
    | none => exact htake
    | some bytes => exact hpack htake hring hstride bytes

end Balanced

end Playback

namespace Driver

variable {w : Nat} {d : Driver w}

def xferFrames (d : Driver w) : Xfer → Nat
  | .out i => d.outFrames i
  | _ => 0

/-- The books of a running session. `serving` are the frames of the transfer whose callback is running, still
queued although libusb has given it back. -/
structure Ledger (d : Driver w) (serving held completed : Nat) (charged : Int) : Prop where
  balanced : d.pb.Balanced held completed charged
  whole : ∀ i, ∀ n ∈ (d.transfers i).lengths, d.stride ∣ n
  queued : d.pb.queuedOutFrames = ∑ x ∈ d.usb.owned, d.xferFrames x + serving
  started : d.pb.playbackStarted = true
  running : d.stopRequested = false

namespace Ledger

variable {serving held completed : Nat} {charged : Int}

theorem setPlayback (h : d.Ledger serving held completed charged) {d' : Driver w} {charged' : Int}
    (hb : d'.pb.Balanced held completed charged') (hside : d'.pb.eventSide = d.pb.eventSide)
    (htransfers : d'.transfers = d.transfers) (howned : d'.usb.owned = d.usb.owned)
    (hstop : d'.stopRequested = d.stopRequested) : d'.Ledger serving held completed charged' := by
  have hstride : d'.stride = d.stride := congrArg (fun e => e.1.frameStride) hside
  have hqueued : d'.pb.queuedOutFrames = d.pb.queuedOutFrames := congrArg (fun e => e.2.1) hside
  have hframes : d'.xferFrames = d.xferFrames := by
    funext x; cases x <;> simp only [xferFrames, outFrames, htransfers, hstride]
  refine ⟨hb, ?_, ?_, (congrArg (fun e => e.2.2) hside).trans h.started, hstop.trans h.running⟩
  · rw [htransfers, hstride]; exact h.whole
  · rw [hqueued, howned, hframes]; exact h.queued

theorem congr (h : d.Ledger serving held completed charged) {d' : Driver w} (hpb : d'.pb = d.pb)
    (htransfers : d'.transfers = d.transfers) (howned : d'.usb.owned = d.usb.owned)
    (hstop : d'.stopRequested = d.stopRequested) : d'.Ledger serving held completed charged :=
  h.setPlayback (hpb ▸ h.balanced) (congrArg _ hpb) htransfers howned hstop

theorem deliverOut {i : Nat} (h : d.Ledger 0 held completed charged) (hi : .out i ∈ d.usb.owned)
    (status : TransferStatus) (results : List TransferStatus) :
    (d.deliverOut i status results).Ledger ((d.deliverOut i status results).outFrames i) held completed charged := by
  have hlens : ∀ k, ((d.deliverOut i status results).transfers k).lengths = (d.transfers k).lengths := by
    intro k
    by_cases hk : k = i
    · subst hk; simp [Driver.deliverOut]
    · simp [Driver.deliverOut, hk]
  have hframes : (d.deliverOut i status results).xferFrames = d.xferFrames := by
    funext x
    cases x with
    | out k =>
      simp only [xferFrames, outFrames, Transfer.descriptorFrames_eq, hlens]
      rfl
    | _ => rfl
  refine ⟨h.balanced, fun k n hn => h.whole k n (hlens k ▸ hn), ?_, h.started, h.running⟩
  show d.pb.queuedOutFrames = ∑ x ∈ d.usb.owned.erase (.out i), (d.deliverOut i status results).xferFrames x +
    (d.deliverOut i status results).xferFrames (.out i)
  rw [hframes, h.queued, ← Finset.sum_erase_add _ _ hi, Nat.add_zero]

theorem release (h : d.Ledger 0 held completed charged) {x : Xfer} (hx : d.xferFrames x = 0) :
    (d.release x).Ledger 0 held completed charged := by
  refine ⟨h.balanced, h.whole, ?_, h.started, h.running⟩
  show d.pb.queuedOutFrames = ∑ y ∈ d.usb.owned.erase x, d.xferFrames y + 0
  rw [Finset.sum_erase _ hx]
  exact h.queued

theorem creditOut {i : Nat} (h : d.Ledger (d.outFrames i) held completed charged) :
    ((d.completeOut i).creditOut i).Ledger 0 held (completed + d.outFrames i) charged := by
  have hq := h.queued
  have hn : d.outFrames i ≤ d.pb.queuedOutFrames := by omega
  have hpb : ((d.completeOut i).creditOut i).pb =
      { d.pb with
        queuedOutFrames := d.pb.queuedOutFrames - d.outFrames i
        playbackCredit := d.pb.playbackCredit + d.outFrames i } := if_pos h.started
  have hstride : ((d.completeOut i).creditOut i).stride = d.stride := by rw [stride, hpb]; rfl
  have hframes : ((d.completeOut i).creditOut i).xferFrames = d.xferFrames := by
    funext x
    cases x with
    | out k => simp only [xferFrames, outFrames, hstride]; rfl
    | _ => rfl
  refine ⟨?_, ?_, ?_, ?_, h.running⟩
  · rw [hpb]; exact h.balanced.complete hn
  · rw [hstride]; exact h.whole
  · rw [hpb, hframes]
    show d.pb.queuedOutFrames - d.outFrames i = ∑ x ∈ d.usb.owned, d.xferFrames x + 0
    omega
  · rw [hpb]; exact h.started

theorem refill {i : Nat} {plan : List Nat} (h : d.Ledger 0 0 completed charged) (hi : .out i ∉ d.usb.owned)
    (hp : plan.length = (d.transfers i).numIsoPackets) {d' : Driver w}
    (hpb : d'.pb = (UacDriver.refill Playback.drainPacket d.stride 0 plan (d.pb, d.transfers i)).1)
    (htransfers : d'.transfers = Function.update d.transfers i
      (UacDriver.refill Playback.drainPacket d.stride 0 plan (d.pb, d.transfers i)).2)
    (howned : d'.usb.owned = d.usb.owned) (hstop : d'.stopRequested = d.stopRequested) :
    d'.Ledger 0 (d'.outFrames i) completed charged := by
  have hside : d'.pb.eventSide = d.pb.eventSide := by rw [hpb]; exact refill_eventSide ..
  have hstride : d'.stride = d.stride := congrArg (fun e => e.1.frameStride) hside
  obtain ⟨hlens, hbal⟩ := h.balanced.refill (x := d.transfers i) hp
  have hself : d'.transfers i = (UacDriver.refill Playback.drainPacket d.stride 0 plan (d.pb, d.transfers i)).2 := by
    rw [htransfers, Function.update_self]
  have hother : ∀ k ≠ i, d'.transfers k = d.transfers k := fun k hk => by rw [htransfers, Function.update_of_ne hk]
  refine ⟨?_, fun k n hn => ?_, ?_, (congrArg (fun e => e.2.2) hside).trans h.started, hstop.trans h.running⟩
  · rw [outFrames, hself, hstride, hpb, ← Nat.zero_add (Transfer.descriptorFrames _ _)]
    exact hbal
  · rw [hstride]
    by_cases hk : k = i
    · subst hk
      rw [hself] at hn; exact hlens n hn
    · rw [hother k hk] at hn; exact h.whole k n hn
  · have hqueued : d'.pb.queuedOutFrames = d.pb.queuedOutFrames := congrArg (fun e => e.2.1) hside
    rw [hqueued, howned, h.queued]
    congr 1
    refine Finset.sum_congr rfl fun x hx => ?_
    cases x with
    | out k =>
      have hk : k ≠ i := by rintro rfl; exact hi hx
      simp only [xferFrames, outFrames, hother k hk, hstride]
    | _ => rfl

theorem queueSubmitted {i : Nat} (h : d.Ledger 0 (held + d.outFrames i) completed charged)
    (hi : .out i ∉ d.usb.owned) {d' : Driver w}
    (hpb : d'.pb = { d.pb with queuedOutFrames := d.pb.queuedOutFrames + d.outFrames i })
    (htransfers : d'.transfers = d.transfers) (howned : d'.usb.owned = insert (.out i) d.usb.owned)
    (hstop : d'.stopRequested = d.stopRequested) : d'.Ledger 0 held completed charged := by
  have hstride : d'.stride = d.stride := by rw [stride, hpb]; rfl
  have hframes : d'.xferFrames = d.xferFrames := by
    funext x; cases x <;> simp only [xferFrames, outFrames, htransfers, hstride]
  refine ⟨hpb ▸ h.balanced.queue, ?_, ?_, by rw [hpb]; exact h.started, hstop.trans h.running⟩
  · rw [htransfers, hstride]; exact h.whole
  · rw [hpb, howned, hframes, Finset.sum_insert hi]
    show d.pb.queuedOutFrames + d.outFrames i = d.outFrames i + _ + 0
    have := h.queued; omega

theorem submitOther (h : d.Ledger 0 held completed charged) {x : Xfer} (hx : d.xferFrames x = 0)
    (hfree : x ∉ d.usb.owned) (lengths : List Nat) : (d.submit x true lengths).Ledger 0 held completed charged := by
  refine ⟨h.balanced, h.whole, ?_, h.started, h.running⟩
  show d.pb.queuedOutFrames = ∑ y ∈ insert x d.usb.owned, d.xferFrames y + 0
  rw [Finset.sum_insert hfree, hx, Nat.zero_add]
  exact h.queued

/-! ### The callbacks on the books -/

theorem resubmitOut {i : Nat} (h : d.Ledger 0 (d.outFrames i) completed charged) (hi : .out i ∉ d.usb.owned)
    (implicit : Bool) : (d.resubmitOut i implicit true).Ledger 0 0 completed charged := by
  rw [← Nat.zero_add (d.outFrames i)] at h
  exact h.queueSubmitted hi rfl rfl rfl rfl

/-- A deferred transfer carries nothing: its frames have completed. -/
theorem deferTransfer (h : d.Ledger 0 held completed charged) {i : Nat} (hroom : d.pending.length < kMaxTransferCount) :
    (d.deferTransfer i).Ledger 0 held completed charged := by
  unfold Driver.deferTransfer
  rw [if_pos hroom]
  exact h.setPlayback (h.balanced.congr rfl rfl rfl rfl rfl rfl) rfl rfl rfl rfl

variable {L : Finset Nat}

theorem onIso (hL : L.card ≤ kMaxTransferCount) {i : Nat} (hr : d.rotation.Serving L (.out i))
    (h : d.Ledger (d.outFrames i) 0 completed charged) (hc : (d.transfers i).status ≠ .cancelled)
    (hn : (d.transfers i).status ≠ .noDevice) {ok : Xfer → Bool} (hok : ∀ x, ok x = true) :
    (d.onIso i ok).Ledger 0 0 (completed + d.outFrames i) charged := by
  have hi : .out i ∉ d.usb.owned := hr.not_owned
  have hcr := h.creditOut
  refine onIso_rule (P := fun d' => d'.Ledger 0 0 (completed + d.outFrames i) charged) ?_ ?_ ?_ ?_ ?_
  · intro hret
    simp [retires, hc, h.running] at hret
  · exact fun _ he => absurd he hn
  · intro _ _ _ stats
    have hst : (((d.completeOut i).creditOut i).withStats stats).Ledger 0 0 (completed + d.outFrames i) charged :=
      hcr.congr rfl rfl rfl rfl
    exact hst.deferTransfer (hr.pending_length.trans_le hL)
  · intro _ _ _ _
    rw [hok]
    have hplan : (((d.completeOut i).creditOut i).implicitPlan i).length =
        (((d.completeOut i).creditOut i).transfers i).numIsoPackets := by simp [implicitPlan, MetaFifo.frameCounts]
    have href : (((d.completeOut i).creditOut i).takeAndRefill i).Ledger 0 _ _ charged :=
      hcr.refill hi hplan rfl rfl rfl rfl
    exact href.resubmitOut hi true
  · intro _ _
    rw [hok]
    have href : (((d.completeOut i).creditOut i).refillScheduled i).Ledger 0 _ _ charged :=
      hcr.refill hi (Pacing.planPackets_length _ _ _) rfl rfl rfl rfl
    exact href.resubmitOut hi false

theorem onFeedback {k : Nat} (h : d.Ledger 0 held completed charged) {x : Transfer} (hn : x.status ≠ .noDevice)
    {ok : Xfer → Bool} (hok : ∀ x, ok x = true) (hk : .feedback k ∉ d.usb.owned) :
    (d.onFeedback k x ok).Ledger 0 held completed charged := by
  have hnote : (d.noteFeedback x).Ledger 0 held completed charged := by
    unfold Driver.noteFeedback
    split
    · split
      · unfold acceptFeedback
        dsimp only
        split
        · exact h.congr rfl rfl rfl rfl
        · exact h
      · exact h.congr rfl rfl rfl rfl
    · exact h.congr rfl rfl rfl rfl
  have howned : (d.noteFeedback x).usb.owned = d.usb.owned := congrArg Rotation.owned (noteFeedback_rotation x)
  unfold Driver.onFeedback
  split
  · exact h.congr rfl rfl rfl rfl
  simp only [hok, if_true]
  exact hnote.submitOther rfl (by rw [howned]; exact hk) _

theorem submitPendingImplicitTransfers {y : Xfer} (hr : d.rotation.Serving L y)
    (h : d.Ledger 0 0 completed charged) {ok : Xfer → Bool} (hok : ∀ x, ok x = true) :
    (d.submitPendingImplicitTransfers ok).Ledger 0 0 completed charged := by
  have hloop := submitPending_rule ok
    (P := fun d rest => Rotation.Serving { d.rotation with pending := rest } L y ∧ d.Ledger 0 0 completed charged)
    (Q := fun d _ => d.Ledger 0 0 completed charged)
    (fun _ h => h.2) (fun _ _ _ _ h _ => h.2.congr rfl rfl rfl rfl) ?_ ?_ d d.pending ⟨hr, h⟩
  · exact hloop.congr rfl rfl rfl rfl
  · intro d i rest _ _ hno
    rw [hok] at hno; cases hno
  · intro d i rest h _ _
    have hi : .out i ∉ d.usb.owned := h.1.pending_free i List.mem_cons_self
    have hplan : (d.implicitPlan i).length = (d.transfers i).numIsoPackets := by
      simp [implicitPlan, MetaFifo.frameCounts]
    have href : (d.takeAndRefill i).Ledger 0 ((d.takeAndRefill i).outFrames i) completed charged :=
      h.2.refill hi hplan rfl rfl rfl rfl
    rw [← Nat.zero_add ((d.takeAndRefill i).outFrames i)] at href
    exact ⟨h.1.releasePending, href.queueSubmitted hi rfl rfl rfl rfl⟩

theorem onCapture {j : Nat} (hr : d.rotation.Serving L (.capture j)) (h : d.Ledger 0 0 completed charged)
    {x : Transfer} (hn : x.status ≠ .noDevice) {ok : Xfer → Bool} (hok : ∀ x, ok x = true) :
    (d.onCapture j x ok).Ledger 0 0 completed charged := by
  have hrec : (d.receiveCapture x).Ledger 0 0 completed charged := h.congr rfl rfl rfl rfl
  have hr' : (d.receiveCapture x).rotation.Serving L (.capture j) := by rw [receiveCapture_rotation]; exact hr
  have hsub := hrec.submitPendingImplicitTransfers hr' hok
  have hser := submitPendingImplicitTransfers_serving hr' ok
  unfold Driver.onCapture
  split
  · exact h.congr rfl rfl rfl rfl
  split
  · exact h.congr rfl rfl rfl rfl
  dsimp only
  split
  · exact hsub.congr rfl rfl rfl rfl
  simp only [hok, if_true]
  have hwake : (((d.receiveCapture x).submitPendingImplicitTransfers ok).wakeCapture).Ledger 0 0 completed charged :=
    hsub.congr rfl rfl rfl rfl
  exact hwake.submitOther rfl hser.not_owned _

end Ledger

end Driver

/-! ### Runs -/

def Driver.charge {w : Nat} (d : Driver w) : DriverAct → Int
  | .takePlaybackCredit frames => d.pb.creditTaken frames
  | .chargePlaybackCredit frames => d.pb.creditCharged frames
  | .submitQuantum accepting policy frames _ charge => d.pb.quantumCharge accepting policy frames charge
  | _ => 0

/-- A step of a session that keeps running: submits succeed, the device stays, and nobody asks for a stop. -/
def DriverAct.KeepsRunning : DriverAct → Prop
  | outDone _ status _ ok => status ≠ .cancelled ∧ status ≠ .noDevice ∧ ∀ x, ok x = true
  | feedbackDone _ x ok | captureDone _ x ok => x.status ≠ .noDevice ∧ ∀ x, ok x = true
  | requestStop => False
  | _ => True

/-- The driver with its history: the descriptor frames of the OUT transfers completed, and what was charged. -/
structure LedgerRun (w : Nat) where
  drv : Driver w
  completed : Nat := 0
  charged : Int := 0

namespace LedgerRun

variable {w : Nat}

def step (s : LedgerRun w) (a : DriverAct) : LedgerRun w :=
  { drv := s.drv.step a
    completed := match a with
      | .outDone i _ _ _ => if .out i ∈ s.drv.usb.owned then s.completed + s.drv.outFrames i else s.completed
      | _ => s.completed
    charged := s.charged + s.drv.charge a }

structure Inv (L : Finset Nat) (s : LedgerRun w) : Prop where
  rotation : s.drv.rotation.Ok L
  ledger : s.drv.Ledger 0 0 s.completed s.charged

theorem Inv.step {L : Finset Nat} (hL : L.card ≤ kMaxTransferCount) {s : LedgerRun w} (h : s.Inv L) (a : DriverAct)
    (ha : a.KeepsRunning) : (s.step a).Inv L := by
  refine ⟨Driver.step_ok hL h.rotation a, ?_⟩
  have hled := h.ledger
  -- the steps that charge nothing leave the history alone
  have hkeep {d' : Driver w} (h' : d'.Ledger 0 0 s.completed s.charged) :
      d'.Ledger 0 0 s.completed (s.charged + 0) := by
    rw [Int.add_zero]; exact h'
  cases a with
  | outDone i status results ok =>
    obtain ⟨hc, hn, hok⟩ := ha
    simp only [LedgerRun.step, Driver.step, Driver.charge, Int.add_zero]
    split
    · rename_i hi
      have hdel := hled.deliverOut hi status results
      have hframes : (s.drv.deliverOut i status results).outFrames i = s.drv.outFrames i := by
        simp only [Driver.outFrames, Transfer.descriptorFrames_eq, Driver.deliverOut, Function.update_self,
          Transfer.completeWith_lengths]
        rfl
      have hstatus : ((s.drv.deliverOut i status results).transfers i).status = status := by
        simp [Driver.deliverOut, Transfer.completeWith]
      have hser : (s.drv.deliverOut i status results).rotation.Serving L (.out i) := h.rotation.release hi
      rw [← hframes]
      exact hdel.onIso hL hser (by rw [hstatus]; exact hc) (by rw [hstatus]; exact hn) hok
    · exact hled
  | feedbackDone k x ok =>
    simp only [LedgerRun.step, Driver.step, Driver.charge]
    refine hkeep ?_
    split
    · rename_i hk
      have hrel : (s.drv.release (.feedback k)).Ledger 0 0 s.completed s.charged := hled.release rfl
      exact hrel.onFeedback ha.1 ha.2 (Finset.notMem_erase _ _)
    · exact hled
  | captureDone j x ok =>
    simp only [LedgerRun.step, Driver.step, Driver.charge]
    refine hkeep ?_
    split
    · rename_i hj
      have hrel : (s.drv.release (.capture j)).Ledger 0 0 s.completed s.charged := hled.release rfl
      have hser : (s.drv.release (.capture j)).rotation.Serving L (.capture j) := h.rotation.release hj
      exact hrel.onCapture hser ha.1 ha.2
    · exact hled
  | requestStop => exact absurd ha id
  | writePcm data frames =>
    exact hkeep (hled.setPlayback (hled.balanced.writePcm data frames) (Playback.writePcm_eventSide data frames)
      rfl rfl rfl)
  | submitQuantum accepting policy frames packed charge =>
    exact hled.setPlayback (hled.balanced.submitQuantum accepting policy frames packed charge)
      (Playback.submitQuantum_eventSide _ _ _ _ _ _) rfl rfl rfl
  | takePlaybackCredit frames =>
    exact hled.setPlayback (hled.balanced.takePlaybackCredit frames) (Playback.takePlaybackCredit_eventSide frames)
      rfl rfl rfl
  | chargePlaybackCredit frames =>
    exact hled.setPlayback (hled.balanced.chargePlaybackCredit frames)
      (Playback.chargePlaybackCredit_eventSide frames) rfl rfl rfl
  | setPolicy _ _ _ _ => exact hkeep (hled.setPlayback (hled.balanced.congr rfl rfl rfl rfl rfl rfl) rfl rfl rfl rfl)
  | readCapturePcm _ => exact hkeep (hled.congr rfl rfl rfl rfl)
  | discardCaptureFrames _ => exact hkeep (hled.congr rfl rfl rfl rfl)
  | beginCaptureLive _ => exact hkeep (hled.congr rfl rfl rfl rfl)
  | registerPlayback => exact hkeep (hled.congr rfl rfl rfl rfl)
  | unregisterPlayback => exact hkeep (hled.congr rfl rfl rfl rfl)
  | registerCapture => exact hkeep (hled.congr rfl rfl rfl rfl)
  | unregisterCapture => exact hkeep (hled.congr rfl rfl rfl rfl)

end LedgerRun

end UacDriver

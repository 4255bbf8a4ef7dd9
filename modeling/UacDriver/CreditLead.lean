import UacDriver.LedgerStart
import UacDriver.PrimeReach

/-!
# The lead that credit permits

`takePlaybackCredit` admits a block down to minus the target, the submitted runway and the reserve. Credit, ring and
queue together are the ledger's zero point: the frames written less the frames charged. A block that is published is
charged, so from the start on the zero point only falls, whatever completes and whatever fails; but it starts at the
prime, which was written and never charged. The floor therefore admits up to target, reserve and prime, and what holds
a block back beyond the target and the reserve is the headroom or the ring.
-/

namespace UacDriver

open Circular Cursor Runs

namespace Playback

variable {w : Nat} {p : Playback w}

/-- The zero point of the ledger. -/
def zeroPoint (p : Playback w) : Int := p.playbackCredit + p.bufferedFrames + p.queuedOutFrames

/-- The headroom or the ring ends within the reserve, or nothing was written without a charge. -/
def LeadBounded (p : Playback w) : Prop :=
  p.writeHeadroomFrames ≤ p.playbackCreditReserve ∨
  p.ring.size.bytes / p.stride ≤ p.playbackTargetFrames + p.playbackCreditReserve ∨
  p.zeroPoint ≤ 0

instance : Decidable p.LeadBounded := inferInstanceAs (Decidable (_ ∨ _ ∨ _))

/-- What admission compares with: nothing but the stores of the policy moves it. -/
def limits (p : Playback w) : StreamFormat × RingSize w × Nat × Nat × Nat :=
  (p.format, p.ring.size, p.playbackTargetFrames, p.writeHeadroomFrames, p.playbackCreditReserve)

theorem Balanced.zeroPoint {completed : Nat} {charged : Int} (h : p.Balanced 0 completed charged) :
    p.zeroPoint = p.writtenFrames - charged := by
  have hw := h.written
  have hc := h.credit
  unfold Playback.zeroPoint
  omega

/-! ### A block and the books -/

theorem preparePlaybackWrite_whole {frames : Int} (h : 0 < frames) (hw : frames ≤ p.writableFrames) :
    (p.preparePlaybackWrite frames).2.frames = frames ∧ (p.preparePlaybackWrite frames).2.frameStride = p.stride ∧
    p.stride ≠ 0 := by
  have hs : p.stride ≠ 0 := by
    intro h0
    rw [writableFrames, if_pos h0] at hw
    omega
  rw [writableFrames, if_neg hs] at hw
  have hall : min frames.toNat p.admissible = frames.toNat := Nat.min_eq_left (by omega)
  unfold preparePlaybackWrite
  rw [if_neg (by omega)]
  dsimp only
  rw [hall, if_neg (by omega)]
  exact ⟨Int.toNat_of_nonneg h.le, rfl, hs⟩

/-- What lets a whole block of the credit policy through. -/
structure Takes (p : Playback w) (accepting : Bool) (frames : Int) (packed : Option (List UInt8)) : Prop where
  positive : 0 < frames
  bounded : frames ≤ kMaxFramesPerWrite
  accepting : accepting = true
  writable : frames ≤ p.writableFrames
  credit : p.playbackStarted = true → p.playbackCredit - frames ≥ p.creditFloor
  packed : packed.isSome

theorem takePlaybackCredit_paid {frames : Int} (h : 0 < frames) : (p.takePlaybackCredit frames).2 = true ↔
    (p.playbackStarted = true → p.playbackCredit - frames ≥ p.creditFloor) := by
  unfold takePlaybackCredit
  rw [if_neg (by omega)]
  by_cases hs : p.playbackStarted = true <;> by_cases hc : p.playbackCredit - frames ≥ p.creditFloor <;> simp [hs, hc]

/-- Preparing a write touches the overrun counter and its flag only. -/
theorem preparePlaybackWrite_fst (frames : Int) : ∃ overruns active,
    (p.preparePlaybackWrite frames).1 = { p with playbackOverruns := overruns, playbackOverrunActive := active } := by
  unfold preparePlaybackWrite
  split
  · exact ⟨p.playbackOverruns, p.playbackOverrunActive, rfl⟩
  · dsimp only
    split <;> exact ⟨_, _, rfl⟩

theorem takePlaybackCredit_prepared (frames : Int) (h : 0 < frames) :
    ((p.preparePlaybackWrite frames).1.takePlaybackCredit frames).2 = true ↔
      (p.playbackStarted = true → p.playbackCredit - frames ≥ p.creditFloor) := by
  obtain ⟨overruns, active, he⟩ := preparePlaybackWrite_fst (p := p) frames
  rw [takePlaybackCredit_paid h, he]
  rfl

/-- A block of the credit policy that gets as far as the ledger. -/
theorem submitWholeQuantum_eq {frames : Int} (hpos : 0 < frames) (hmax : frames ≤ kMaxFramesPerWrite)
    (hw : frames ≤ p.writableFrames) (packed : Option (List UInt8)) :
    let taken := (p.preparePlaybackWrite frames).1.takePlaybackCredit frames
    let region := (p.preparePlaybackWrite frames).2
    p.submitQuantum true 1 frames packed true = match taken.2, packed with
      | true, some bytes => (((taken.1.fillRegion region bytes).commitPlaybackWrite region).noteQuantumWritten, true)
      | _, _ => (taken.1, false) := by
  unfold submitQuantum
  rw [if_neg (by simp; omega), if_pos hw]
  dsimp only
  rw [if_pos (preparePlaybackWrite_whole hpos hw).1]
  rfl

theorem submitQuantum_refused {accepting : Bool} {policy : Nat} {frames : Int} {packed : Option (List UInt8)} {charge : Bool}
    (h : frames ≤ 0 ∨ frames > kMaxFramesPerWrite ∨ accepting = false ∨ p.writableFrames < frames) :
    p.submitQuantum accepting policy frames packed charge = (p, false) := by
  unfold submitQuantum
  split
  · rfl
  rename_i hg
  rw [not_or, not_or] at hg
  rw [if_neg]
  intro hw
  rcases h with h | h | h | h
  · exact hg.1 h
  · exact hg.2.1 h
  · exact hg.2.2 (by rw [h]; rfl)
  · omega

theorem submitWholeQuantum_admitted {accepting : Bool} {frames : Int} {packed : Option (List UInt8)} :
    (p.submitQuantum accepting 1 frames packed true).2 = true ↔ p.Takes accepting frames packed := by
  constructor
  · intro h
    by_cases hg : frames ≤ 0 ∨ frames > kMaxFramesPerWrite ∨ accepting = false ∨ p.writableFrames < frames
    · rw [submitQuantum_refused hg] at h
      cases h
    rw [not_or, not_or, not_or] at hg
    obtain ⟨hpos, hmax, hacc, hw⟩ := hg
    obtain rfl : accepting = true := by simpa using hacc
    rw [submitWholeQuantum_eq (by omega) (by omega) (by omega)] at h
    cases hpaid : ((p.preparePlaybackWrite frames).1.takePlaybackCredit frames).2
    · rw [hpaid] at h
      cases h
    · cases packed with
      | none =>
        rw [hpaid] at h
        cases h
      | some bytes =>
        exact ⟨by omega, by omega, rfl, by omega, (takePlaybackCredit_prepared frames (by omega)).1 hpaid, rfl⟩
  · intro h
    obtain ⟨bytes, rfl⟩ := Option.isSome_iff_exists.1 h.packed
    rw [h.accepting, submitWholeQuantum_eq h.positive h.bounded h.writable,
      (takePlaybackCredit_prepared frames h.positive).2 h.credit]

/-- A block is written as far as it is published. -/
theorem submitWholeQuantum_written (accepting : Bool) (frames : Int) (packed : Option (List UInt8)) :
    let r := p.submitQuantum accepting 1 frames packed true
    (r.1.writtenFrames : Int) = p.writtenFrames + if r.2 = true then frames else 0 := by
  dsimp only
  by_cases hg : frames ≤ 0 ∨ frames > kMaxFramesPerWrite ∨ accepting = false ∨ p.writableFrames < frames
  · rw [submitQuantum_refused hg]
    simp
  rw [not_or, not_or, not_or] at hg
  obtain ⟨hpos, hmax, hacc, hw⟩ := hg
  obtain rfl : accepting = true := by simpa using hacc
  obtain ⟨hframes, hstride, hs⟩ := @preparePlaybackWrite_whole _ p frames (by omega) (by omega)
  obtain ⟨overruns, active, he⟩ := preparePlaybackWrite_fst (p := p) frames
  have htaken : ((p.preparePlaybackWrite frames).1.takePlaybackCredit frames).1.writtenFrames = p.writtenFrames := by
    rw [he]
    unfold takePlaybackCredit
    split
    · rfl
    split
    · rfl
    split <;> rfl
  rw [submitWholeQuantum_eq (by omega) (by omega) (by omega)]
  cases hpaid : ((p.preparePlaybackWrite frames).1.takePlaybackCredit frames).2
  · simp [htaken]
  cases packed with
  | none => simp [htaken]
  | some bytes =>
    dsimp only
    rw [if_pos rfl, ← htaken, noteQuantumWritten, commitPlaybackWrite, if_neg (by rw [hstride]; omega)]
    show (((_ : Nat) + (p.preparePlaybackWrite frames).2.frames : Nat) : Int) = _
    rw [Int.natCast_add, hframes]
    rfl

/-- A published block is charged its frames. -/
theorem quantumCharge_of_takes {accepting : Bool} {frames : Int} {packed : Option (List UInt8)}
    (h : p.Takes accepting frames packed) (hs : p.playbackStarted = true) :
    p.quantumCharge accepting 1 frames true = frames := by
  unfold quantumCharge
  rw [if_pos ⟨h.positive, h.bounded, h.accepting, h.writable, (preparePlaybackWrite_whole h.positive h.writable).1, rfl,
    rfl⟩, creditTaken_eq, if_pos ⟨h.positive, hs, h.credit hs⟩]

theorem quantumCharge_nonneg (accepting : Bool) (policy : Nat) (frames : Int) (charge : Bool) :
    0 ≤ p.quantumCharge accepting policy frames charge := by
  unfold quantumCharge
  split
  · rename_i h
    rw [creditTaken_eq]
    split <;> omega
  · exact Int.le_refl 0

/-! ### The room that admission leaves -/

/-- The occupancy up to which blocks are admitted: what the ring and the frame limit hold, and what the floor allows. -/
def room (p : Playback w) : Int :=
  min p.capacityFrames (p.playbackTargetFrames + p.playbackCreditReserve + p.zeroPoint)

theorem frameLimit_started (hs : p.playbackStarted = true) :
    p.frameLimit = p.playbackTargetFrames + p.writeHeadroomFrames := by
  rw [frameLimit, if_pos hs]

theorem leadBounded_iff (hs : p.playbackStarted = true) :
    p.LeadBounded ↔ p.room ≤ p.playbackTargetFrames + p.playbackCreditReserve := by
  unfold LeadBounded room capacityFrames
  rw [frameLimit_started hs]
  omega

theorem room_congr {p' : Playback w} (hs' : p'.playbackStarted = true) (hs : p.playbackStarted = true)
    (hlimits : p'.limits = p.limits) (hzero : p'.zeroPoint = p.zeroPoint) : p'.room = p.room := by
  simp only [limits, Prod.mk.injEq] at hlimits
  obtain ⟨hformat, hsize, htarget, hheadroom, hreserve⟩ := hlimits
  have hstride : p'.stride = p.stride := congrArg StreamFormat.frameStride hformat
  rw [room, room, capacityFrames, capacityFrames, frameLimit_started hs', frameLimit_started hs, hsize, htarget, hheadroom,
    hreserve, hstride, hzero]

theorem Balanced.takes_iff {held completed : Nat} {charged : Int} (h : p.Balanced held completed charged)
    (hs : p.playbackStarted = true) {accepting : Bool} {frames : Int} {packed : Option (List UInt8)} :
    p.Takes accepting frames packed ↔
      0 < frames ∧ frames ≤ kMaxFramesPerWrite ∧ accepting = true ∧ packed.isSome ∧ p.bufferedFrames + frames ≤ p.room := by
  have hcredit : p.playbackCredit - frames ≥ p.creditFloor ↔
      p.bufferedFrames + frames ≤ p.playbackTargetFrames + p.playbackCreditReserve + p.zeroPoint := by
    unfold creditFloor Playback.zeroPoint
    omega
  have hwritable : 0 < frames → (frames ≤ p.writableFrames ↔ p.bufferedFrames + frames ≤ (p.capacityFrames : Int)) := by
    intro hpos
    by_cases h0 : p.stride = 0
    · have hcap : p.capacityFrames = 0 := by rw [capacityFrames, h0, Nat.div_zero, Nat.zero_min]
      rw [writableFrames, if_pos h0, hcap]
      omega
    obtain ⟨q, hq⟩ := h.aligned
    rw [Nat.mul_comm] at hq
    have hbuf : p.bufferedFrames = q := by
      rw [bufferedFrames_eq, hq, Nat.mul_div_cancel _ (Nat.pos_of_ne_zero h0)]
    rw [writableFrames, if_neg h0, admissible_of_whole (Nat.pos_of_ne_zero h0) hq, hbuf]
    omega
  unfold room
  constructor
  · intro ht
    have hc := hcredit.1 (ht.credit hs)
    have hw := (hwritable ht.positive).1 ht.writable
    exact ⟨ht.positive, ht.bounded, ht.accepting, ht.packed, le_min hw hc⟩
  · rintro ⟨hpos, hmax, hacc, hpacked, hroom⟩
    obtain ⟨hw, hc⟩ := le_min_iff.1 hroom
    exact ⟨hpos, hmax, hacc, (hwritable hpos).2 hw, fun _ => hcredit.2 hc, hpacked⟩

theorem preparePlaybackWrite_limits (frames : Int) : (p.preparePlaybackWrite frames).1.limits = p.limits := by
  obtain ⟨overruns, active, he⟩ := preparePlaybackWrite_fst (p := p) frames
  rw [he]
  rfl

theorem takePlaybackCredit_limits (frames : Int) : (p.takePlaybackCredit frames).1.limits = p.limits := by
  unfold takePlaybackCredit
  split
  · rfl
  split
  · rfl
  split <;> rfl

theorem commitPlaybackWrite_limits (region : PlaybackWriteRegion w) : (p.commitPlaybackWrite region).limits = p.limits := by
  unfold commitPlaybackWrite
  split <;> rfl

theorem submitQuantum_limits (accepting : Bool) (policy : Nat) (frames : Int) (packed : Option (List UInt8))
    (charge : Bool) : (p.submitQuantum accepting policy frames packed charge).1.limits = p.limits := by
  have hpaid : ∀ p₂ : Playback w, (p₂ = (p.preparePlaybackWrite frames).1 ∨ charge = true ∧ policy = 1 ∧
      p₂ = ((p.preparePlaybackWrite frames).1.takePlaybackCredit frames).1) → p₂.limits = p.limits := by
    rintro p₂ (rfl | ⟨-, -, rfl⟩)
    · exact preparePlaybackWrite_limits frames
    · exact (takePlaybackCredit_limits frames).trans (preparePlaybackWrite_limits frames)
  refine submitQuantum_rule (P := fun p' => p'.limits = p.limits) rfl (preparePlaybackWrite_limits frames)
    hpaid fun p₂ bytes _ _ h => (commitPlaybackWrite_limits _).trans (hpaid p₂ ?_)
  rcases h with h | ⟨h₁, h₂, h₃, -⟩
  exacts [.inl h, .inr ⟨h₁, h₂, h₃⟩]

/-- A published block moves its frames from the credit to the ring. -/
theorem Balanced.publish {completed : Nat} {charged : Int} (h : p.Balanced 0 completed charged)
    (hs : p.playbackStarted = true) {accepting : Bool} {frames : Int} {packed : Option (List UInt8)}
    (ht : p.Takes accepting frames packed) :
    let p' := (p.submitQuantum accepting 1 frames packed true).1
    p'.Balanced 0 completed (charged + frames) ∧ p'.zeroPoint = p.zeroPoint ∧
      (p'.bufferedFrames : Int) = p.bufferedFrames + frames := by
  intro p'
  have hb := h.submitQuantum accepting 1 frames packed true
  rw [quantumCharge_of_takes ht hs] at hb
  have hw := submitWholeQuantum_written (p := p) accepting frames packed
  dsimp only at hw
  rw [submitWholeQuantum_admitted.2 ht, if_pos rfl] at hw
  have hz : p'.zeroPoint = p.zeroPoint := by
    have hw' : (p'.writtenFrames : Int) = p.writtenFrames + frames := hw
    rw [h.zeroPoint, Balanced.zeroPoint hb, hw']
    omega
  have hq : p'.queuedOutFrames = p.queuedOutFrames :=
    congrArg (fun e => e.2.1) (submitQuantum_eventSide p accepting 1 frames packed true)
  have hc₀ := h.credit
  have hc₁ : p'.playbackCredit = completed - (charged + frames) := hb.credit
  refine ⟨hb, hz, ?_⟩
  unfold Playback.zeroPoint at hz
  omega

end Playback

/-! ### The books over any step -/

namespace Driver

variable {w : Nat} {d d' : Driver w} {q : Playback w} {serving held : Nat}

def clearStop (d : Driver w) : Driver w := { d with stopRequested := false }

/-- The ledger of a session that may have stopped. What was lost on the way, by a submission that failed, counts as
completed and charged. The limits are those of `q`, and so is the zero point at most. -/
structure Books (d : Driver w) (q : Playback w) (serving held : Nat) : Prop where
  ledger : ∃ completed charged, d.clearStop.Ledger serving held completed charged ∧
    (d.pb.writtenFrames : Int) - charged ≤ q.zeroPoint
  limits : d.pb.limits = q.limits

namespace Books

theorem congr (h : d.Books q serving held) (hpb : d'.pb = d.pb) (htransfers : d'.transfers = d.transfers)
    (howned : d'.usb.owned = d.usb.owned) : d'.Books q serving held := by
  obtain ⟨completed, charged, hl, hz⟩ := h.ledger
  exact ⟨⟨completed, charged, hl.congr hpb htransfers howned rfl, by rw [hpb]; exact hz⟩,
    by rw [hpb]; exact h.limits⟩

/-- Frames that are out of the ring and will not be submitted. -/
theorem lose (h : d.Books q serving held) : d.Books q serving 0 := by
  obtain ⟨completed, charged, hl, hz⟩ := h.ledger
  refine ⟨⟨completed + held, charged + held, ⟨?_, hl.whole, hl.queued, hl.started, rfl⟩, by omega⟩, h.limits⟩
  have hb := hl.balanced
  have hw := hb.written
  have hp := hb.played
  have hc := hb.credit
  exact ⟨hb.used_le, hb.aligned, by omega, by omega, by push_cast; omega⟩

theorem deliverOut {i : Nat} (h : d.Books q 0 held) (hi : .out i ∈ d.usb.owned) (status : TransferStatus)
    (results : List TransferStatus) :
    (d.deliverOut i status results).Books q ((d.deliverOut i status results).outFrames i) held := by
  obtain ⟨completed, charged, hl, hz⟩ := h.ledger
  exact ⟨⟨completed, charged, hl.deliverOut hi status results, hz⟩, h.limits⟩

theorem release (h : d.Books q 0 held) {x : Xfer} (hx : d.xferFrames x = 0) : (d.release x).Books q 0 held := by
  obtain ⟨completed, charged, hl, hz⟩ := h.ledger
  exact ⟨⟨completed, charged, hl.release hx, hz⟩, h.limits⟩

theorem creditOut {i : Nat} (h : d.Books q (d.outFrames i) held) : ((d.completeOut i).creditOut i).Books q 0 held := by
  obtain ⟨completed, charged, hl, hz⟩ := h.ledger
  have hpb : ((d.completeOut i).creditOut i).pb =
      { d.pb with
        queuedOutFrames := d.pb.queuedOutFrames - d.outFrames i
        playbackCredit := d.pb.playbackCredit + d.outFrames i } := if_pos hl.started
  refine ⟨⟨_, charged, hl.creditOut, ?_⟩, ?_⟩
  · rw [hpb]; exact hz
  · rw [hpb]; exact h.limits

/-- A transfer that retires takes its frames off the queue, and nobody is credited. -/
theorem completeOut {i : Nat} (h : d.Books q (d.outFrames i) 0) : (d.completeOut i).Books q 0 0 := by
  obtain ⟨completed, charged, hl, hz⟩ := h.ledger
  have hq : d.pb.queuedOutFrames = ∑ x ∈ d.usb.owned, d.xferFrames x + d.outFrames i := hl.queued
  have hb := hl.balanced
  have hw := hb.written
  have hp := hb.played
  have hc := hb.credit
  refine ⟨⟨completed + d.outFrames i, charged + d.outFrames i, ⟨⟨hb.used_le, hb.aligned, ?_, ?_, ?_⟩, hl.whole, ?_,
    hl.started, rfl⟩, ?_⟩, h.limits⟩
  · show d.pb.writtenFrames = d.pb.bufferedFrames + 0 + (d.pb.queuedOutFrames - d.outFrames i) + (completed + d.outFrames i)
    have hw' : d.pb.writtenFrames = d.pb.bufferedFrames + 0 + d.pb.queuedOutFrames + completed := hw
    omega
  · show d.pb.playedFrames = 0 + (d.pb.queuedOutFrames - d.outFrames i) + (completed + d.outFrames i)
    have hp' : d.pb.playedFrames = 0 + d.pb.queuedOutFrames + completed := hp
    omega
  · show d.pb.playbackCredit = ((completed + d.outFrames i : Nat) : Int) - (charged + d.outFrames i)
    have hc' : d.pb.playbackCredit = completed - charged := hc
    push_cast
    omega
  · show d.pb.queuedOutFrames - d.outFrames i = ∑ x ∈ d.usb.owned, d.xferFrames x + 0
    omega
  · show (d.pb.writtenFrames : Int) - (charged + d.outFrames i) ≤ q.zeroPoint
    omega

theorem refill {i : Nat} {plan : List Nat} (h : d.Books q 0 0) (hi : .out i ∉ d.usb.owned)
    (hp : plan.length = (d.transfers i).numIsoPackets)
    (hpb : d'.pb = (UacDriver.refill Playback.drainPacket d.stride 0 plan (d.pb, d.transfers i)).1)
    (htransfers : d'.transfers = Function.update d.transfers i
      (UacDriver.refill Playback.drainPacket d.stride 0 plan (d.pb, d.transfers i)).2)
    (howned : d'.usb.owned = d.usb.owned) : d'.Books q 0 (d'.outFrames i) := by
  obtain ⟨completed, charged, hl, hz⟩ := h.ledger
  have hkept : d'.pb.writtenFrames = d.pb.writtenFrames ∧ d'.pb.limits = d.pb.limits := by
    rw [hpb]
    refine refill_invariant (I := fun pb' : Playback w => pb'.writtenFrames = d.pb.writtenFrames ∧ pb'.limits = d.pb.limits)
      (fun _ bytes pb' hpb' => ⟨hpb'.1, ?_⟩) _ _ _ ⟨rfl, rfl⟩
    rw [← hpb'.2, Playback.limits, Playback.limits]
    simp only [Playback.drainPacket, Playback.drainRing_size]
    rfl
  refine ⟨⟨completed, charged, hl.refill hi hp hpb htransfers howned rfl, ?_⟩,
    hkept.2.trans h.limits⟩
  rw [hkept.1]
  exact hz

theorem queueSubmitted {i : Nat} (h : d.Books q 0 (d.outFrames i)) (hi : .out i ∉ d.usb.owned)
    (hpb : d'.pb = { d.pb with queuedOutFrames := d.pb.queuedOutFrames + d.outFrames i })
    (htransfers : d'.transfers = d.transfers) (howned : d'.usb.owned = insert (.out i) d.usb.owned) :
    d'.Books q 0 0 := by
  obtain ⟨completed, charged, hl, hz⟩ := h.ledger
  have hl' : d.clearStop.Ledger 0 (0 + d.clearStop.outFrames i) completed charged := by
    rw [Nat.zero_add]
    exact hl
  refine ⟨⟨completed, charged, hl'.queueSubmitted hi hpb htransfers howned rfl, ?_⟩, ?_⟩
  · rw [hpb]; exact hz
  · rw [hpb]; exact h.limits

theorem submitOther (h : d.Books q 0 0) {x : Xfer} (hx : d.xferFrames x = 0) (hfree : x ∉ d.usb.owned)
    (lengths : List Nat) : (d.submit x true lengths).Books q 0 0 := by
  obtain ⟨completed, charged, hl, hz⟩ := h.ledger
  exact ⟨⟨completed, charged, hl.submitOther hx hfree lengths, hz⟩, h.limits⟩

theorem refuseCapture (h : d.Books q 0 0) (j : Nat) (lengths : List Nat) :
    (d.submit (.capture j) false lengths).failCapture.Books q 0 0 := h.congr rfl rfl rfl

theorem withPlayback (h : d.Books q 0 0) (hring : d'.pb.ring = d.pb.ring) (hlimits : d'.pb.limits = d.pb.limits)
    (hwritten : d'.pb.writtenFrames = d.pb.writtenFrames) (hplayed : d'.pb.playedFrames = d.pb.playedFrames)
    (hside : d'.pb.eventSide = d.pb.eventSide) (hcredit : d'.pb.playbackCredit = d.pb.playbackCredit)
    (htransfers : d'.transfers = d.transfers) (howned : d'.usb.owned = d.usb.owned) : d'.Books q 0 0 := by
  obtain ⟨completed, charged, hl, hz⟩ := h.ledger
  have hb : d'.pb.Balanced 0 completed charged :=
    hl.balanced.congr hring (congrArg (fun e => e.1) hlimits) hwritten hplayed (congrArg (fun e => e.2.1) hside) hcredit
  exact ⟨⟨completed, charged, hl.setPlayback hb hside htransfers howned rfl,
    by rw [hwritten]; exact hz⟩, hlimits.trans h.limits⟩

/-! ### The callbacks on the books -/

theorem deferTransfer (h : d.Books q 0 0) (i : Nat) : (d.deferTransfer i).Books q 0 0 := by
  unfold Driver.deferTransfer
  split
  · exact h.withPlayback rfl rfl rfl rfl rfl rfl rfl rfl
  · exact h.congr rfl rfl rfl

theorem resubmitOut {i : Nat} (h : d.Books q 0 (d.outFrames i)) (hi : .out i ∉ d.usb.owned) (implicit ok : Bool) :
    (d.resubmitOut i implicit ok).Books q 0 0 := by
  cases ok
  · exact h.lose.congr rfl rfl rfl
  · exact h.queueSubmitted hi rfl rfl rfl

variable {L : Finset Nat}

theorem onIso {i : Nat} (hr : d.rotation.Serving L (.out i)) (h : d.Books q (d.outFrames i) 0) (ok : Xfer → Bool) :
    (d.onIso i ok).Books q 0 0 := by
  have hi : .out i ∉ d.usb.owned := hr.not_owned
  have hcr : ((d.completeOut i).creditOut i).Books q 0 0 := h.creditOut
  refine onIso_rule (P := fun d' => d'.Books q 0 0) (fun _ => h.completeOut.congr rfl rfl rfl)
    (fun _ _ => h.completeOut.congr rfl rfl rfl) (fun _ _ _ stats => ?_) (fun _ _ _ _ => ?_) (fun _ _ => ?_)
  · have hst : (((d.completeOut i).creditOut i).withStats stats).Books q 0 0 := hcr.congr rfl rfl rfl
    exact hst.deferTransfer i
  · have hplan : (((d.completeOut i).creditOut i).implicitPlan i).length =
        (((d.completeOut i).creditOut i).transfers i).numIsoPackets := by simp [implicitPlan, MetaFifo.frameCounts]
    have href : (((d.completeOut i).creditOut i).takeAndRefill i).Books q 0 _ := hcr.refill hi hplan rfl rfl rfl
    exact href.resubmitOut hi true _
  · have href : (((d.completeOut i).creditOut i).refillScheduled i).Books q 0 _ :=
      hcr.refill hi (Pacing.planPackets_length _ _ _) rfl rfl rfl
    exact href.resubmitOut hi false _

theorem onFeedback {k : Nat} (h : d.Books q 0 0) (hk : .feedback k ∉ d.usb.owned) (x : Transfer) (ok : Xfer → Bool) :
    (d.onFeedback k x ok).Books q 0 0 := by
  have hnote : (d.noteFeedback x).Books q 0 0 := by
    unfold Driver.noteFeedback
    split
    · split
      · unfold acceptFeedback
        dsimp only
        split
        · exact h.congr rfl rfl rfl
        · exact h
      · exact h.congr rfl rfl rfl
    · exact h.congr rfl rfl rfl
  have howned : (d.noteFeedback x).usb.owned = d.usb.owned := congrArg Rotation.owned (noteFeedback_rotation x)
  refine onFeedback_rule (P := fun d' => d'.Books q 0 0) (h.congr rfl rfl rfl) (h.congr rfl rfl rfl) (fun _ _ => ?_)
    (fun _ _ => hnote.congr rfl rfl rfl)
  exact hnote.submitOther rfl (by rw [howned]; exact hk) _

theorem submitPendingImplicitTransfers {y : Xfer} (hr : d.rotation.Serving L y) (h : d.Books q 0 0) (ok : Xfer → Bool) :
    (d.submitPendingImplicitTransfers ok).Books q 0 0 := by
  have href {d : Driver w} (h : d.Books q 0 0) {i : Nat} (hi : .out i ∉ d.usb.owned) :
      (d.takeAndRefill i).Books q 0 ((d.takeAndRefill i).outFrames i) :=
    h.refill hi (by simp [implicitPlan, MetaFifo.frameCounts]) rfl rfl rfl
  have hloop := submitPending_rule ok
    (P := fun d rest => Rotation.Serving { d.rotation with pending := rest } L y ∧ d.Books q 0 0)
    (Q := fun d _ => d.Books q 0 0)
    (fun _ h => h.2) (fun _ _ _ _ h _ => h.2.congr rfl rfl rfl) ?_ ?_ d d.pending ⟨hr, h⟩
  · exact hloop.congr rfl rfl rfl
  · intro d i rest h _ _
    exact (href h.2 (h.1.pending_free i List.mem_cons_self)).lose.congr rfl rfl rfl
  · intro d i rest h _ _
    have hi : .out i ∉ d.usb.owned := h.1.pending_free i List.mem_cons_self
    exact ⟨h.1.releasePending, (href h.2 hi).queueSubmitted hi rfl rfl rfl⟩

theorem onCapture {j : Nat} (hr : d.rotation.Serving L (.capture j)) (h : d.Books q 0 0) (x : Transfer)
    (ok : Xfer → Bool) : (d.onCapture j x ok).Books q 0 0 := by
  have hrec : (d.receiveCapture x).Books q 0 0 := h.congr rfl rfl rfl
  have hr' : (d.receiveCapture x).rotation.Serving L (.capture j) := by rw [receiveCapture_rotation]; exact hr
  have hsub := hrec.submitPendingImplicitTransfers hr' ok
  have hser := submitPendingImplicitTransfers_serving hr' ok
  have hwake : (((d.receiveCapture x).submitPendingImplicitTransfers ok).wakeCapture).Books q 0 0 := hsub.congr rfl rfl rfl
  exact onCapture_rule (P := fun d' => d'.Books q 0 0) (fun _ => h.congr rfl rfl rfl) (fun _ => h.congr rfl rfl rfl)
    (fun _ => hwake.congr rfl rfl rfl) (fun _ _ => hwake.submitOther rfl hser.not_owned _)
    (fun _ _ => hwake.refuseCapture j _)

end Books

end Driver

/-- A step of a producer that publishes through `submitWholeQuantum` under the credit policy, which stays as it is. -/
def DriverAct.Paced : DriverAct → Prop
  | submitQuantum _ policy _ _ charge => policy = 1 ∧ charge = true
  | writePcm _ _ | setPolicy _ _ _ _ => False
  | _ => True

namespace Driver

variable {w : Nat} {d d' : Driver w} {q : Playback w} {L : Finset Nat}

namespace Books

theorem opened {completed : Nat} {charged : Int} (hl : d.clearStop.Ledger 0 0 completed charged) : d.Books d.pb 0 0 := by
  have hb : d.pb.Balanced 0 completed charged := hl.balanced
  exact ⟨⟨completed, charged, hl, hb.zeroPoint.ge⟩, rfl⟩

theorem balanced (h : d.Books q 0 0) : ∃ completed charged, d.pb.Balanced 0 completed charged := by
  obtain ⟨completed, charged, hl, -⟩ := h.ledger
  exact ⟨completed, charged, hl.balanced⟩

theorem started (h : d.Books q 0 0) : d.pb.playbackStarted = true := by
  obtain ⟨_, _, hl, -⟩ := h.ledger
  exact hl.started

theorem zeroPoint_le (h : d.Books q 0 0) : d.pb.zeroPoint ≤ q.zeroPoint := by
  obtain ⟨completed, charged, hl, hz⟩ := h.ledger
  have hb : d.pb.Balanced 0 completed charged := hl.balanced
  rw [hb.zeroPoint]
  exact hz

/-- A whole quantum: what is written is charged. -/
theorem submitWholeQuantum (h : d.Books q 0 0) (accepting : Bool) (frames : Int) (packed : Option (List UInt8)) :
    (d.step (.submitQuantum accepting 1 frames packed true)).Books q 0 0 := by
  obtain ⟨completed, charged, hl, hz⟩ := h.ledger
  refine ⟨⟨completed, _, hl.setPlayback (hl.balanced.submitQuantum accepting 1 frames packed true)
    (Playback.submitQuantum_eventSide _ _ _ _ _ _) rfl rfl rfl, ?_⟩,
    (Playback.submitQuantum_limits _ _ _ _ _).trans h.limits⟩
  show ((d.pb.submitQuantum accepting 1 frames packed true).1.writtenFrames : Int) -
    (charged + d.pb.quantumCharge accepting 1 frames true) ≤ q.zeroPoint
  have hw := Playback.submitWholeQuantum_written (p := d.pb) accepting frames packed
  dsimp only at hw
  by_cases ht : d.pb.Takes accepting frames packed
  · rw [Playback.submitWholeQuantum_admitted.2 ht, if_pos rfl] at hw
    rw [hw, Playback.quantumCharge_of_takes ht h.started]
    omega
  · rw [if_neg fun h => ht (Playback.submitWholeQuantum_admitted.1 h)] at hw
    have := d.pb.quantumCharge_nonneg accepting 1 frames true
    omega

theorem takePlaybackCredit (h : d.Books q 0 0) (frames : Int) : (d.step (.takePlaybackCredit frames)).Books q 0 0 := by
  obtain ⟨completed, charged, hl, hz⟩ := h.ledger
  have hnonneg : 0 ≤ d.pb.creditTaken frames := by
    rw [Playback.creditTaken_eq]
    split <;> omega
  have hwritten : (d.pb.takePlaybackCredit frames).1.writtenFrames = d.pb.writtenFrames := by
    unfold Playback.takePlaybackCredit
    split
    · rfl
    split
    · rfl
    split <;> rfl
  refine ⟨⟨completed, charged + d.pb.creditTaken frames, hl.setPlayback (hl.balanced.takePlaybackCredit frames)
    (Playback.takePlaybackCredit_eventSide frames) rfl rfl rfl, ?_⟩,
    (Playback.takePlaybackCredit_limits frames).trans h.limits⟩
  show ((d.pb.takePlaybackCredit frames).1.writtenFrames : Int) - _ ≤ _
  omega

theorem chargePlaybackCredit (h : d.Books q 0 0) (frames : Int) :
    (d.step (.chargePlaybackCredit frames)).Books q 0 0 := by
  obtain ⟨completed, charged, hl, hz⟩ := h.ledger
  have hnonneg : 0 ≤ d.pb.creditCharged frames := by
    unfold Playback.creditCharged
    split <;> omega
  have hkept : (d.pb.chargePlaybackCredit frames).writtenFrames = d.pb.writtenFrames ∧
      (d.pb.chargePlaybackCredit frames).limits = d.pb.limits := by
    unfold Playback.chargePlaybackCredit
    split
    · exact ⟨rfl, rfl⟩
    split <;> exact ⟨rfl, rfl⟩
  refine ⟨⟨completed, charged + d.pb.creditCharged frames, hl.setPlayback (hl.balanced.chargePlaybackCredit frames)
    (Playback.chargePlaybackCredit_eventSide frames) rfl rfl rfl, ?_⟩, hkept.2.trans h.limits⟩
  show ((d.pb.chargePlaybackCredit frames).writtenFrames : Int) - _ ≤ _
  omega

/-- The steps of the callbacks and of whoever reads, waits, stops or takes credit. -/
theorem step_paced (hL : d.rotation.Ok L) (h : d.Books q 0 0) (a : DriverAct) (ha : a.Paced) :
    (d.step a).Books q 0 0 := by
  cases a with
  | outDone i status results ok =>
    simp only [Driver.step]
    split
    · rename_i hi
      have hser : (d.deliverOut i status results).rotation.Serving L (.out i) := hL.release hi
      exact (h.deliverOut hi status results).onIso hser ok
    · exact h
  | feedbackDone k x ok =>
    simp only [Driver.step]
    split
    · have hrel : (d.release (.feedback k)).Books q 0 0 := h.release rfl
      exact hrel.onFeedback (Finset.notMem_erase _ _) x ok
    · exact h
  | captureDone j x ok =>
    simp only [Driver.step]
    split
    · rename_i hj
      have hrel : (d.release (.capture j)).Books q 0 0 := h.release rfl
      have hser : (d.release (.capture j)).rotation.Serving L (.capture j) := hL.release hj
      exact hrel.onCapture hser x ok
    · exact h
  | requestStop => exact h.congr rfl rfl rfl
  | writePcm _ _ => exact ha.elim
  | submitQuantum accepting policy frames packed charge =>
    obtain ⟨rfl, rfl⟩ := ha
    exact h.submitWholeQuantum accepting frames packed
  | takePlaybackCredit frames => exact h.takePlaybackCredit frames
  | chargePlaybackCredit frames => exact h.chargePlaybackCredit frames
  | setPolicy _ _ _ _ => exact ha.elim
  | readCapturePcm _ => exact h.congr rfl rfl rfl
  | discardCaptureFrames _ => exact h.congr rfl rfl rfl
  | beginCaptureLive _ => exact h.congr rfl rfl rfl
  | registerPlayback => exact h.congr rfl rfl rfl
  | unregisterPlayback => exact h.congr rfl rfl rfl
  | registerCapture => exact h.congr rfl rfl rfl
  | unregisterCapture => exact h.congr rfl rfl rfl

theorem step (hL : d.rotation.Ok L) (h : d.Books q 0 0) (a : DriverAct) : (d.step a).Books (d.step a).pb 0 0 := by
  by_cases ha : a.Paced
  · obtain ⟨_, _, hl, -⟩ := (h.step_paced hL a ha).ledger
    exact opened hl
  obtain ⟨completed, charged, hl, -⟩ := h.ledger
  cases a with
  | writePcm data frames =>
    exact opened (d := d.step (.writePcm data frames)) (hl.setPlayback (hl.balanced.writePcm data frames)
      (Playback.writePcm_eventSide data frames) rfl rfl rfl)
  | submitQuantum accepting policy frames packed charge =>
    exact opened (d := d.step (.submitQuantum accepting policy frames packed charge))
      (hl.setPlayback (hl.balanced.submitQuantum accepting policy frames packed charge)
        (Playback.submitQuantum_eventSide _ _ _ _ _ _) rfl rfl rfl)
  | setPolicy target prime headroom reserve =>
    exact opened (d := d.step (.setPolicy target prime headroom reserve))
      (hl.setPlayback (hl.balanced.congr rfl rfl rfl rfl rfl rfl) rfl rfl rfl rfl)
  | _ => exact absurd trivial ha

end Books

/-- `startPlayback` has just returned true on a fresh driver: any steps before the OUT descriptors were planned, any
steps between the plan and the start. -/
inductive PlaybackBegun : Driver w → Prop
  | intro (c : UserspaceBufferConfig) (hc : c.accepted = true) (d : Driver w) (hd : d.Fresh c)
    (playback capture : StreamFormat) (mps maxPacket : Int) (captureOk playbackOk : Xfer → Bool) (alloc : Bool)
    (warm pre : List DriverAct) (d₁ d₂ d₃ : Driver w)
    (h₁ : ((d.start playback).resetCapture capture).startCapturePump mps captureOk = some d₁)
    (h₂ : (run Driver.step d₁ warm).startIsoPump maxPacket alloc = some d₂)
    (h₃ : (run Driver.step d₂ pre).startPlayback playbackOk = some d₃) : PlaybackBegun d₃

theorem PlaybackBegun.ledger (h : d.PlaybackBegun) :
    ∃ L : Finset Nat, L.card ≤ kMaxTransferCount ∧ d.rotation.Ok L ∧ d.Ledger 0 0 0 0 := by
  cases h with
  | intro c hc d₀ hd playback capture mps maxPacket captureOk playbackOk alloc warm pre d₁ d₂ d₃ h₁ h₂ h₃ =>
    have hidle (d' : Driver w) (h : d'.Idle) (bs : List DriverAct) : (run Driver.step d' bs).Idle :=
      run_invariant (I := Driver.Idle) (fun _ a h => h.step a) h bs
    have hi₁ : d₁.Idle := ((Driver.Idle.start hc hd playback).resetCapture capture).startCapturePump hd.owned h₁
    have hi₂ : d₂.Idle := (hidle d₁ hi₁ warm).startIsoPump h₂
    have hi₃ := hidle d₂ hi₂ pre
    refine ⟨Finset.range (run Driver.step d₂ pre).outCount, ?_, hi₃.startPlayback h₃⟩
    rw [Finset.card_range]
    exact hi₃.outCount

/-- What every run from session start keeps: the rotation and some books. -/
structure Kept (L : Finset Nat) (d : Driver w) : Prop where
  rotation : d.rotation.Ok L
  books : d.Books d.pb 0 0

theorem Kept.step (hL : L.card ≤ kMaxTransferCount) (h : d.Kept L) (a : DriverAct) : (d.step a).Kept L :=
  ⟨step_ok hL h.rotation a, h.books.step h.rotation a⟩

/-- Over paced steps the zero point falls and the limits stay. -/
theorem Kept.paced (hL : L.card ≤ kMaxTransferCount) (h : d.Kept L) {bs : List DriverAct} (hbs : ∀ b ∈ bs, b.Paced) :
    (run Driver.step d bs).Books d.pb 0 0 := by
  have hmeets : Meets Driver.step (fun _ b => b.Paced) d bs := .of_forall hbs _
  have hrun := hmeets.invariant (I := fun e => e.rotation.Ok L ∧ e.Books d.pb 0 0)
    (fun e b hb he => ⟨step_ok hL he.1 b, he.2.step_paced he.1 b hb⟩) ⟨h.rotation, h.books⟩
  exact hrun.2

/-- After every whole block that is admitted on the way, the ring holds no more than target and reserve. -/
def KeepsLead (d : Driver w) (bs : List DriverAct) : Prop :=
  ∀ pre accepting frames packed post, bs = pre ++ .submitQuantum accepting 1 frames packed true :: post →
    let p := (run Driver.step d pre).pb
    let r := p.submitQuantum accepting 1 frames packed true
    p.playbackStarted = true → r.2 = true →
      r.1.bufferedFrames ≤ r.1.playbackTargetFrames + r.1.playbackCreditReserve

/-- Blocks of one frame fill the room that admission leaves. -/
theorem run_oneFrame (bytes : List UInt8) {completed : Nat} {charged : Int} (h : d.pb.Balanced 0 completed charged)
    (hs : d.pb.playbackStarted = true) {k : Nat} (hk : d.pb.bufferedFrames + k ≤ d.pb.room) :
    let p := (run Driver.step d (List.replicate k (.submitQuantum true 1 1 (some bytes) true))).pb
    (∃ charged', p.Balanced 0 completed charged') ∧ p.playbackStarted = true ∧ p.limits = d.pb.limits ∧
      p.zeroPoint = d.pb.zeroPoint ∧ (p.bufferedFrames : Int) = d.pb.bufferedFrames + k := by
  induction k with
  | zero => exact ⟨⟨charged, h⟩, hs, rfl, rfl, rfl⟩
  | succ k ih =>
    obtain ⟨⟨charged', hb⟩, hstarted, hlimits, hzero, hbuf⟩ := ih (by omega)
    rw [List.replicate_succ', run_append, run_cons, run_nil]
    set e := run Driver.step d (List.replicate k (.submitQuantum true 1 1 (some bytes) true))
    have hroom := Playback.room_congr hstarted hs hlimits hzero
    have ht : e.pb.Takes true 1 (some bytes) := by
      refine (hb.takes_iff hstarted).2 ⟨Int.one_pos, by decide, rfl, rfl, ?_⟩
      rw [hroom, hbuf]
      push_cast at hk
      omega
    obtain ⟨hb', hzero', hbuf'⟩ := hb.publish hstarted ht
    refine ⟨⟨_, hb'⟩, ?_, ?_, hzero'.trans hzero, ?_⟩
    · exact (congrArg (fun e => e.2.2) (Playback.submitQuantum_eventSide e.pb true 1 1 (some bytes) true)).trans hstarted
    · exact (Playback.submitQuantum_limits true 1 1 (some bytes) true).trans hlimits
    · refine hbuf'.trans ?_
      rw [hbuf]
      push_cast
      omega

end Driver

/-- At session start the zero point of the ledger is the prime. From any state that a session has reached, whatever
has happened since, a producer paced by credit keeps within target and reserve in every run if the headroom or the ring
ends within the reserve, or if the zero point is not above zero. Otherwise, as soon as one frame is admitted, blocks of
one frame go past target and reserve. -/
theorem playback_lead_bounded {w : Nat} {d : Driver w} (h : d.PlaybackBegun) (as : List DriverAct) :
    let s := run Driver.step d as
    d.pb.zeroPoint = d.pb.writtenFrames ∧
    (s.pb.LeadBounded → ∀ bs, (∀ b ∈ bs, b.Paced) → s.KeepsLead bs) ∧
    (∀ bytes, (s.pb.submitQuantum true 1 1 (some bytes) true).2 = true →
      ((∀ bs, (∀ b ∈ bs, b.Paced) → s.KeepsLead bs) ↔ s.pb.LeadBounded)) := by
  obtain ⟨L, hL, hrot, hl⟩ := h.ledger
  intro s
  have hk₀ : d.Kept L := by
    have hopened : d.clearStop.Ledger 0 0 0 0 := hl.congr rfl rfl rfl hl.running.symm
    exact ⟨hrot, .opened hopened⟩
  have hk : s.Kept L := run_invariant (I := Driver.Kept L) (fun _ a he => he.step hL a) hk₀ as
  have hs := hk.books.started
  have hforward : s.pb.LeadBounded → ∀ bs, (∀ b ∈ bs, b.Paced) → s.KeepsLead bs := by
    intro hlead bs hbs pre accepting frames packed post hsplit
    dsimp only
    intro hstarted hadmitted
    have hpre : ∀ b ∈ pre, b.Paced := fun b hb => hbs b (hsplit ▸ List.mem_append_left _ hb)
    have hbooks := hk.paced hL hpre
    set e := run Driver.step s pre
    obtain ⟨completed, charged, hb⟩ := hbooks.balanced
    have ht := Playback.submitWholeQuantum_admitted.1 hadmitted
    obtain ⟨-, -, hbuf⟩ := hb.publish hstarted ht
    -- the room has not grown since `s`
    have hlimits := hbooks.limits
    have hzero := hbooks.zeroPoint_le
    have hlimits' := Playback.submitQuantum_limits (p := e.pb) accepting 1 frames packed true
    simp only [Playback.limits, Prod.mk.injEq] at hlimits hlimits'
    obtain ⟨hformat, hsize, htarget, hheadroom, hreserve⟩ := hlimits
    obtain ⟨-, -, htarget', -, hreserve'⟩ := hlimits'
    have hstride : e.pb.stride = s.pb.stride := congrArg StreamFormat.frameStride hformat
    have hlead' : e.pb.LeadBounded := by
      unfold Playback.LeadBounded at hlead ⊢
      rw [hheadroom, hreserve, htarget, hsize, hstride]
      omega
    have hroom := (Playback.leadBounded_iff hstarted).1 hlead'
    obtain ⟨-, -, -, -, hfit⟩ := (hb.takes_iff hstarted).1 ht
    rw [htarget', hreserve']
    omega
  refine ⟨by rw [Playback.Balanced.zeroPoint hl.balanced]; omega, hforward, fun bytes hone => ⟨fun hall => ?_, hforward⟩⟩
  by_contra hlead
  obtain ⟨completed, charged, hb⟩ := hk.books.balanced
  obtain ⟨-, -, -, -, hfit⟩ := (hb.takes_iff hs).1 (Playback.submitWholeQuantum_admitted.1 hone)
  have hroom := mt (Playback.leadBounded_iff hs).2 hlead
  -- the blocks up to the last one, which leaves the ring above target and reserve
  obtain ⟨k, hk₁, hk₂⟩ : ∃ k : Nat, s.pb.bufferedFrames + k + 1 ≤ s.pb.room ∧
      s.pb.playbackTargetFrames + s.pb.playbackCreditReserve < s.pb.bufferedFrames + k + 1 :=
    ⟨s.pb.playbackTargetFrames + s.pb.playbackCreditReserve - s.pb.bufferedFrames, by omega, by omega⟩
  have hpaced : ∀ b ∈ List.replicate (k + 1) (DriverAct.submitQuantum true 1 1 (some bytes) true), b.Paced := by
    intro b hb
    obtain rfl := List.eq_of_mem_replicate hb
    exact ⟨rfl, rfl⟩
  obtain ⟨⟨charged', hb'⟩, hstarted, hlimits, hzero, hbuf⟩ := Driver.run_oneFrame bytes hb hs (k := k) (by omega)
  have hkeep := hall _ hpaced (List.replicate k (.submitQuantum true 1 1 (some bytes) true)) true 1 (some bytes) []
    List.replicate_succ'
  set e := run Driver.step s (List.replicate k (.submitQuantum true 1 1 (some bytes) true))
  have ht : e.pb.Takes true 1 (some bytes) := by
    refine (hb'.takes_iff hstarted).2 ⟨Int.one_pos, by decide, rfl, rfl, ?_⟩
    rw [Playback.room_congr hstarted hs hlimits hzero, hbuf]
    exact hk₁
  have hlast := hkeep hstarted (Playback.submitWholeQuantum_admitted.2 ht)
  obtain ⟨-, -, hbuf'⟩ := hb'.publish hstarted ht
  have hlimits' := (Playback.submitQuantum_limits (p := e.pb) true 1 1 (some bytes) true).trans hlimits
  simp only [Playback.limits, Prod.mk.injEq] at hlimits'
  obtain ⟨-, -, htarget, -, hreserve⟩ := hlimits'
  rw [htarget, hreserve] at hlast
  omega

/-! A session under the default policy: target and prime 128 frames, headroom 64, no reserve. Two OUT transfers of two
frames each, and 132 frames written before the start. -/

def primedFormat : StreamFormat := { sampleRateHz := 2000, bytesPerSample := 2, channels := 2, bInterval := 4 }

def primedFresh : Driver 64 :=
  { pb := { ring := Ring.assign .smallest }, cap := { ring := Ring.assign .smallest }
    userspaceBufferConfig := { transferCount := 2, packetsPerTransfer := 1 }, geometry := { transferCount := 2 } }

def primedCapture : Driver 64 :=
  (((primedFresh.start primedFormat).resetCapture primedFormat).startCapturePump 12 fun _ => true).getD primedFresh

def primedPump : Driver 64 := (primedCapture.startIsoPump 12 true).getD primedFresh

def primedSession : Driver 64 :=
  ((run Driver.step primedPump [.writePcm [] 132]).startPlayback fun _ => true).getD primedFresh

theorem primedSession_begun : primedSession.PlaybackBegun := by
  have hd : primedFresh.Fresh { transferCount := 2, packetsPerTransfer := 1 } :=
    ⟨rfl, rfl, rfl, rfl, rfl, rfl, rfl, rfl, fun _ => rfl⟩
  have hsome : ∀ o : Option (Driver 64), o.isSome = true → o = some (o.getD primedFresh) := by
    rintro (_ | d') h
    · cases h
    · rfl
  have h₁ : _ = some primedCapture := hsome _ (by decide)
  have h₂ : primedCapture.startIsoPump 12 true = some primedPump := hsome _ (by decide)
  have h₃ : _ = some primedSession := hsome _ (by decide)
  exact .intro _ (by decide) primedFresh hd primedFormat primedFormat 12 12 (fun _ => true) (fun _ => true) true []
    [.writePcm [] 132] primedCapture primedPump primedSession h₁ h₂ h₃

/-- With a reserve of one block the session keeps its lead. -/
theorem playback_lead_bounded_reserve :
    (run Driver.step primedSession [.setPolicy 128 128 64 64]).KeepsLead [.submitQuantum true 1 64 (some []) true] := by
  have hlead : (run Driver.step primedSession [.setPolicy 128 128 64 64]).pb.LeadBounded := .inl (by decide)
  have hpaced : ∀ b ∈ [DriverAct.submitQuantum true 1 64 (some []) true], b.Paced := by
    intro b hb
    obtain rfl := List.mem_singleton.1 hb
    exact ⟨rfl, rfl⟩
  obtain ⟨-, hkeeps, -⟩ := playback_lead_bounded primedSession_begun [.setPolicy 128 128 64 64]
  exact hkeeps hlead _ hpaced

/-- The first block of 64 frames is admitted on top of the full target: no reserve, and 192 frames in the ring. -/
theorem playback_lead_exceeds_reserve :
    primedSession.PlaybackBegun ∧ primedSession.pb.playbackTargetFrames = 128 ∧ primedSession.pb.playbackCreditReserve = 0 ∧
    (primedSession.pb.submitQuantum true 1 64 (some []) true).1.bufferedFrames = 192 ∧
    ¬ primedSession.KeepsLead [.submitQuantum true 1 64 (some []) true] := by
  refine ⟨primedSession_begun, by decide, by decide, by decide, fun h => ?_⟩
  have hlast := h [] true 64 (some []) [] rfl (by decide) (by decide)
  exact absurd hlast (by decide)

end UacDriver

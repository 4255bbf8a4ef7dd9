import UacDriver.Driver
import UacDriver.Lib.Runs

/-!
# Sessions: serialised callbacks and client calls

A session is a list of serialised steps. libusb completes a transfer it owns, with whatever status and packet
results, and the callback runs to its end; the render thread writes quanta, moves credit and reads capture;
waiters come and go; the control thread sets the policy and asks for a stop. A completion of a transfer that
libusb does not own cannot happen and leaves the driver alone.
-/

namespace UacDriver

open Runs

/-- `kMaxGraphQuantum`, the largest block of one submission. -/
def kMaxFramesPerWrite : Int := 1024

/-- `DirectUsbOutput::submitQuantum` on the driver's playback state: `accepting` and `policy` are the adapter's
flag and admission policy, `packed` what `packPlaybackRegionForFormat` writes, nothing if it fails. -/
def Playback.submitQuantum {w : Nat} (p : Playback w) (accepting : Bool) (policy : Nat) (frames : Int)
    (packed : Option (List UInt8)) (chargeCredit : Bool) : Playback w × Bool :=
  if frames ≤ 0 ∨ frames > kMaxFramesPerWrite ∨ !accepting then (p, false)
  else if frames ≤ p.writableFrames then
    let (p₁, region) := p.preparePlaybackWrite frames
    if region.frames = frames then
      let (p₂, paid) := if !chargeCredit ∨ policy ≠ 1 then (p₁, true) else p₁.takePlaybackCredit frames
      match paid, packed with
      | true, some bytes => (((p₂.fillRegion region bytes).commitPlaybackWrite region).noteQuantumWritten, true)
      | _, _ => (p₂, false)
    else (p₁, false)
  else (p, false)

/-- A block is refused, or prepared and paid but not packed, or published whole. -/
theorem Playback.submitQuantum_rule {w : Nat} {p : Playback w} {P : Playback w → Prop} {accepting : Bool} {policy : Nat}
    {frames : Int} {packed : Option (List UInt8)} {chargeCredit : Bool} (refused : P p)
    (short : P (p.preparePlaybackWrite frames).1)
    (unpacked : ∀ p₂, (p₂ = (p.preparePlaybackWrite frames).1 ∨
      chargeCredit = true ∧ policy = 1 ∧ p₂ = ((p.preparePlaybackWrite frames).1.takePlaybackCredit frames).1) → P p₂)
    (published : ∀ p₂ bytes, 0 < frames → (p.preparePlaybackWrite frames).2.frames = frames →
      (p₂ = (p.preparePlaybackWrite frames).1 ∨ chargeCredit = true ∧ policy = 1 ∧
        p₂ = ((p.preparePlaybackWrite frames).1.takePlaybackCredit frames).1 ∧
        ((p.preparePlaybackWrite frames).1.takePlaybackCredit frames).2 = true) →
      P ((p₂.fillRegion (p.preparePlaybackWrite frames).2 bytes).commitPlaybackWrite
        (p.preparePlaybackWrite frames).2).noteQuantumWritten) :
    P (p.submitQuantum accepting policy frames packed chargeCredit).1 := by
  unfold submitQuantum
  split
  · exact refused
  rename_i hg
  split
  · dsimp only
    split
    · rename_i hfr
      by_cases hch : (!chargeCredit) = true ∨ policy ≠ 1
      · rw [if_pos hch]
        cases packed with
        | none => exact unpacked _ (.inl rfl)
        | some bytes => exact published _ bytes (by omega) hfr (.inl rfl)
      · rw [if_neg hch]
        have hcharge : chargeCredit = true ∧ policy = 1 := by
          rw [not_or] at hch
          exact ⟨by simpa using hch.1, by simpa using hch.2⟩
        cases hpaid : ((p.preparePlaybackWrite frames).1.takePlaybackCredit frames).2
        · exact unpacked _ (.inr ⟨hcharge.1, hcharge.2, rfl⟩)
        · cases packed with
          | none => exact unpacked _ (.inr ⟨hcharge.1, hcharge.2, rfl⟩)
          | some bytes => exact published _ bytes (by omega) hfr (.inr ⟨hcharge.1, hcharge.2, rfl, hpaid⟩)
    · exact short
  · exact refused

@[simp] theorem Playback.submitQuantum_eventSide {w : Nat} (p : Playback w) (accepting : Bool) (policy : Nat)
    (frames : Int) (packed : Option (List UInt8)) (chargeCredit : Bool) :
    (p.submitQuantum accepting policy frames packed chargeCredit).1.eventSide = p.eventSide := by
  have hpaid : ∀ p₂ : Playback w, (p₂ = (p.preparePlaybackWrite frames).1 ∨ chargeCredit = true ∧ policy = 1 ∧
      p₂ = ((p.preparePlaybackWrite frames).1.takePlaybackCredit frames).1) → p₂.eventSide = p.eventSide := by
    rintro p₂ (rfl | ⟨-, -, rfl⟩) <;> simp
  refine submitQuantum_rule (P := fun p' => p'.eventSide = p.eventSide) rfl (by simp) hpaid fun p₂ bytes _ _ h => ?_
  show (Playback.commitPlaybackWrite _ _).eventSide = _
  rw [commitPlaybackWrite_eventSide, fillRegion_eventSide]
  refine hpaid p₂ ?_
  rcases h with h | ⟨h₁, h₂, h₃, -⟩
  exacts [.inl h, .inr ⟨h₁, h₂, h₃⟩]

/-- The descriptor results libusb fills in: the lengths are the driver's own and stay. -/
def Transfer.completeWith (x : Transfer) (status : TransferStatus) (results : List TransferStatus) : Transfer :=
  { x with status, packets := x.packets.mapIdx fun p k => { k with status := results.getD p .completed } }

@[simp] theorem Transfer.completeWith_lengths (x : Transfer) (status : TransferStatus)
    (results : List TransferStatus) : (x.completeWith status results).lengths = x.lengths := by
  refine List.ext_getElem (by simp [lengths, completeWith]) fun i _ _ => ?_
  simp [lengths, completeWith]

inductive DriverAct where
  | outDone (i : Nat) (status : TransferStatus) (results : List TransferStatus) (ok : Xfer → Bool)
  | feedbackDone (k : Nat) (x : Transfer) (ok : Xfer → Bool)
  | captureDone (j : Nat) (x : Transfer) (ok : Xfer → Bool)
  | requestStop
  | writePcm (data : List UInt8) (frames : Int)
  | submitQuantum (accepting : Bool) (policy : Nat) (frames : Int) (packed : Option (List UInt8)) (charge : Bool)
  | takePlaybackCredit (frames : Int)
  | chargePlaybackCredit (frames : Int)
  | readCapturePcm (frames : Int)
  | discardCaptureFrames (frames : Int)
  | beginCaptureLive (keepFrames : Int)
  /-- The stores of the buffering policy. -/
  | setPolicy (playbackTargetFrames startupPrimeFrames writeHeadroomFrames playbackCreditReserve : Nat)
  | registerPlayback
  | unregisterPlayback
  | registerCapture
  | unregisterCapture

namespace Driver

variable {w : Nat} (d : Driver w)

def release (x : Xfer) : Driver w := { d with usb := { d.usb with owned := d.usb.owned.erase x } }

/-- The state `onIso` starts in: transfer `i` is the driver's again, with the results filled in. -/
def deliverOut (i : Nat) (status : TransferStatus) (results : List TransferStatus) : Driver w :=
  { d.release (.out i) with
    transfers := Function.update d.transfers i ((d.transfers i).completeWith status results) }

def step : DriverAct → Driver w
  | .outDone i status results ok =>
    if .out i ∈ d.usb.owned then (d.deliverOut i status results).onIso i ok else d
  | .feedbackDone k x ok => if .feedback k ∈ d.usb.owned then (d.release (.feedback k)).onFeedback k x ok else d
  | .captureDone j x ok => if .capture j ∈ d.usb.owned then (d.release (.capture j)).onCapture j x ok else d
  | .requestStop => d.requestStop
  | .writePcm data frames => { d with pb := (d.pb.writePcm data frames).1 }
  | .submitQuantum accepting policy frames packed charge =>
    { d with pb := (d.pb.submitQuantum accepting policy frames packed charge).1 }
  | .takePlaybackCredit frames => { d with pb := (d.pb.takePlaybackCredit frames).1 }
  | .chargePlaybackCredit frames => { d with pb := d.pb.chargePlaybackCredit frames }
  | .readCapturePcm frames => { d with cap := (d.cap.readCapturePcm d.captureFrameLimit frames).1 }
  | .discardCaptureFrames frames => { d with cap := (d.cap.discardCaptureFrames frames).1 }
  | .beginCaptureLive keepFrames => { d with cap := (d.cap.beginCaptureLive keepFrames).1 }
  | .setPolicy playbackTargetFrames startupPrimeFrames writeHeadroomFrames playbackCreditReserve =>
    { d with pb := { d.pb with
        playbackTargetFrames, startupPrimeFrames, writeHeadroomFrames, playbackCreditReserve } }
  | .registerPlayback => { d with playbackWake := { d.playbackWake with waiters := d.playbackWake.waiters + 1 } }
  | .unregisterPlayback => { d with playbackWake := { d.playbackWake with waiters := d.playbackWake.waiters - 1 } }
  | .registerCapture => { d with captureWake := { d.captureWake with waiters := d.captureWake.waiters + 1 } }
  | .unregisterCapture => { d with captureWake := { d.captureWake with waiters := d.captureWake.waiters - 1 } }

end Driver

/-- The driver right after the initial submission of `outs` OUT, `feedbacks` feedback and `captures` capture
transfers: libusb owns all of them, both counters say so, and the histories are empty. -/
def Driver.submitted {w : Nat} (d : Driver w) (outs feedbacks captures : Nat) : Driver w :=
  { d with
    usb := {
      owned := (Finset.range outs).image .out ∪ (Finset.range feedbacks).image .feedback ∪
        (Finset.range captures).image .capture }
    taken := []
    outCount := outs
    feedbackCount := feedbacks
    pending := []
    inflight := outs + feedbacks
    captureInflight := captures
    stopRequested := false
    transportFailed := false }

end UacDriver

import UacDriver.Session
import Mathlib.Algebra.Order.BigOperators.Group.Finset

/-!
# The rotation of transfers

Every OUT transfer is owned by libusb, pending, or retired for good, and the two in-flight counters count what
libusb owns. `Rotation` is the part of the driver this is about, with the few moves a callback can make on it;
`rotation` projects the driver onto it, and each callback is shown to be one of these moves. While the
callback of `x` runs, `x` is still counted although libusb no longer owns it: `Serving x` is the invariant
there, `Ok` the one between callbacks.
-/

namespace UacDriver

open Runs

/-- Who holds which transfer, and the flags that end the rotation. -/
structure Rotation where
  owned : Finset Xfer
  pending : List Nat
  inflight : Int
  captureInflight : Int
  stopRequested : Bool
  transportFailed : Bool
  captureActive : Bool

namespace Rotation

variable (r : Rotation)

def retireOut : Rotation := { r with inflight := r.inflight - 1 }

def retireCapture : Rotation := { r with captureInflight := r.captureInflight - 1 }

def fail : Rotation := { r with stopRequested := true, transportFailed := true, captureActive := false }

def submit (x : Xfer) (ok : Bool) : Rotation := { r with owned := if ok then insert x r.owned else r.owned }

def defer (i : Nat) : Rotation := { r.retireOut with pending := r.pending ++ [i] }

def playbackOwned : Finset Xfer := r.owned.filter fun x => x.isPlayback

def captureOwned : Finset Xfer := r.owned.filter fun x => !x.isPlayback

/-- What holds whether or not a callback runs: the pending list, the OUT transfers in rotation (all in `L`),
and the order of the flags. -/
structure Base (L : Finset Nat) : Prop where
  pending_nodup : r.pending.Nodup
  pending_free : ∀ i ∈ r.pending, .out i ∉ r.owned
  pending_mem : ∀ i ∈ r.pending, i ∈ L
  owned_mem : ∀ i, .out i ∈ r.owned → i ∈ L
  failed_stop : r.transportFailed = true → r.stopRequested = true

/-- Between callbacks. -/
structure Ok (L : Finset Nat) : Prop extends Base r L where
  inflight : r.inflight = r.playbackOwned.card
  captureInflight : r.captureInflight = r.captureOwned.card

/-- While the callback of `x` runs. -/
structure Serving (L : Finset Nat) (x : Xfer) : Prop extends Base r L where
  not_owned : x ∉ r.owned
  free : ∀ i, x = .out i → i ∈ L ∧ i ∉ r.pending
  inflight : r.inflight = r.playbackOwned.card + if x.isPlayback then 1 else 0
  captureInflight : r.captureInflight = r.captureOwned.card + if x.isPlayback then 0 else 1

variable {r} {L : Finset Nat} {x : Xfer}

/-! ### The moves -/

theorem Ok.release (h : r.Ok L) (hx : x ∈ r.owned) : Serving { r with owned := r.owned.erase x } L x := by
  refine ⟨⟨h.pending_nodup, fun i hi hmem => h.pending_free i hi (Finset.mem_of_mem_erase hmem), h.pending_mem,
    fun i hi => h.owned_mem i (Finset.mem_of_mem_erase hi), h.failed_stop⟩, by simp, ?_, ?_, ?_⟩
  · rintro i rfl
    exact ⟨h.owned_mem i hx, fun hi => h.pending_free i hi hx⟩
  · simp only [playbackOwned, Finset.filter_erase]
    rw [h.inflight, playbackOwned]
    by_cases hp : x.isPlayback
    · have hmem : x ∈ r.owned.filter fun x => x.isPlayback := Finset.mem_filter.2 ⟨hx, hp⟩
      rw [if_pos hp, Finset.card_erase_of_mem hmem]
      have := Finset.card_pos.2 ⟨x, hmem⟩
      omega
    · rw [if_neg hp, Finset.erase_eq_of_notMem (by simp [hp])]
      simp
  · simp only [captureOwned, Finset.filter_erase]
    rw [h.captureInflight, captureOwned]
    by_cases hp : x.isPlayback
    · rw [if_pos hp, Finset.erase_eq_of_notMem (by simp [hp])]
      simp
    · have hmem : x ∈ r.owned.filter fun x => !x.isPlayback := Finset.mem_filter.2 ⟨hx, by simpa using hp⟩
      rw [if_neg hp, Finset.card_erase_of_mem hmem]
      have := Finset.card_pos.2 ⟨x, hmem⟩
      omega

theorem Base.fail (h : r.Base L) : r.fail.Base L :=
  ⟨h.pending_nodup, h.pending_free, h.pending_mem, h.owned_mem, fun _ => rfl⟩

theorem Ok.fail (h : r.Ok L) : r.fail.Ok L := ⟨h.toBase.fail, h.inflight, h.captureInflight⟩

theorem Serving.fail (h : r.Serving L x) : r.fail.Serving L x :=
  ⟨h.toBase.fail, h.not_owned, h.free, h.inflight, h.captureInflight⟩

theorem Serving.retireOut (h : r.Serving L x) (hx : x.isPlayback) : r.retireOut.Ok L := by
  refine ⟨⟨h.pending_nodup, h.pending_free, h.pending_mem, h.owned_mem, h.failed_stop⟩, ?_, ?_⟩
  · show r.inflight - 1 = r.playbackOwned.card
    rw [h.inflight, if_pos hx]; omega
  · show r.captureInflight = r.captureOwned.card
    rw [h.captureInflight, if_pos hx]; omega

theorem Serving.retireCapture (h : r.Serving L x) (hx : ¬ x.isPlayback) : r.retireCapture.Ok L := by
  refine ⟨⟨h.pending_nodup, h.pending_free, h.pending_mem, h.owned_mem, h.failed_stop⟩, ?_, ?_⟩
  · show r.inflight = r.playbackOwned.card
    rw [h.inflight, if_neg hx]; omega
  · show r.captureInflight - 1 = r.captureOwned.card
    rw [h.captureInflight, if_neg hx]; omega

theorem Serving.defer {i : Nat} (h : r.Serving L (.out i)) : (r.defer i).Ok L := by
  obtain ⟨hi, hnot⟩ := h.free i rfl
  obtain ⟨hb, h₁, h₂⟩ := h.retireOut rfl
  refine ⟨⟨?_, ?_, ?_, hb.owned_mem, hb.failed_stop⟩, h₁, h₂⟩
  · exact List.nodup_append.2 ⟨h.pending_nodup, List.nodup_singleton i, by
      rintro a ha b hb rfl; rw [List.mem_singleton.1 hb] at ha; exact hnot ha⟩
  · intro k hk
    rcases List.mem_append.1 hk with hk | hk
    · exact h.pending_free k hk
    · rw [List.mem_singleton.1 hk]; exact h.not_owned
  · intro k hk
    rcases List.mem_append.1 hk with hk | hk
    · exact h.pending_mem k hk
    · rw [List.mem_singleton.1 hk]; exact hi

theorem playbackOwned_insert (x : Xfer) (hx : x ∉ r.owned) :
    ((insert x r.owned).filter fun x => x.isPlayback).card =
      (r.owned.filter fun x => x.isPlayback).card + if x.isPlayback then 1 else 0 := by
  by_cases hp : x.isPlayback
  · rw [Finset.filter_insert, if_pos hp, Finset.card_insert_of_notMem (by simp [hx]), if_pos hp]
  · rw [Finset.filter_insert, if_neg hp, if_neg hp]; rfl

theorem captureOwned_insert (x : Xfer) (hx : x ∉ r.owned) :
    ((insert x r.owned).filter fun x => !x.isPlayback).card =
      (r.owned.filter fun x => !x.isPlayback).card + if x.isPlayback then 0 else 1 := by
  by_cases hp : x.isPlayback
  · rw [Finset.filter_insert, if_neg (by simp [hp]), if_pos hp]; rfl
  · rw [Finset.filter_insert, if_pos (by simpa using hp), Finset.card_insert_of_notMem (by simp [hx]), if_neg hp]

theorem Base.insert (h : r.Base L) (hx : ∀ i, x = .out i → i ∈ L ∧ i ∉ r.pending) :
    Base { r with owned := insert x r.owned } L := by
  refine ⟨h.pending_nodup, ?_, h.pending_mem, ?_, h.failed_stop⟩
  · intro i hi hmem
    rcases Finset.mem_insert.1 hmem with he | hmem
    · exact (hx i he.symm).2 hi
    · exact h.pending_free i hi hmem
  · intro i hmem
    rcases Finset.mem_insert.1 hmem with he | hmem
    · exact (hx i he.symm).1
    · exact h.owned_mem i hmem

theorem Serving.resubmit (h : r.Serving L x) : (r.submit x true).Ok L := by
  refine ⟨h.toBase.insert h.free, ?_, ?_⟩
  · show r.inflight = _
    rw [h.inflight]
    simp only [submit, if_true, playbackOwned, playbackOwned_insert x h.not_owned]
    push_cast
    rfl
  · show r.captureInflight = _
    rw [h.captureInflight]
    simp only [submit, if_true, captureOwned, captureOwned_insert x h.not_owned]
    push_cast
    rfl

/-- Counting in a transfer that is about to be submitted. -/
def enter (r : Rotation) (x : Xfer) : Rotation :=
  { r with
    inflight := r.inflight + if x.isPlayback then 1 else 0
    captureInflight := r.captureInflight + if x.isPlayback then 0 else 1 }

theorem Ok.enter (h : r.Ok L) (hx : x ∉ r.owned) (hfree : ∀ i, x = .out i → i ∈ L ∧ i ∉ r.pending) :
    (r.enter x).Serving L x := by
  refine ⟨⟨h.pending_nodup, h.pending_free, h.pending_mem, h.owned_mem, h.failed_stop⟩, hx, hfree, ?_, ?_⟩
  · show r.inflight + _ = _
    rw [h.inflight]; rfl
  · show r.captureInflight + _ = _
    rw [h.captureInflight]; rfl

theorem submit_false : r.submit x false = r := by simp [submit]

theorem Serving.releasePending {i : Nat} {rest : List Nat} (h : Serving { r with pending := i :: rest } L x) :
    Serving { r with owned := Insert.insert (.out i) r.owned, inflight := r.inflight + 1, pending := rest } L x := by
  obtain ⟨hi, hnodup⟩ := List.nodup_cons.1 h.pending_nodup
  have hfree : .out i ∉ r.owned := h.pending_free i List.mem_cons_self
  have hne : x ≠ .out i := fun he => (h.free i he).2 List.mem_cons_self
  refine ⟨⟨hnodup, ?_, fun k hk => h.pending_mem k (List.mem_cons_of_mem _ hk), ?_, h.failed_stop⟩, ?_, ?_, ?_, ?_⟩
  · intro k hk hmem
    rcases Finset.mem_insert.1 hmem with he | hmem
    · cases he; exact hi hk
    · exact h.pending_free k (List.mem_cons_of_mem _ hk) hmem
  · intro k hmem
    rcases Finset.mem_insert.1 hmem with he | hmem
    · cases he; exact h.pending_mem i List.mem_cons_self
    · exact h.owned_mem k hmem
  · intro hmem
    rcases Finset.mem_insert.1 hmem with he | hmem
    · exact hne he
    · exact h.not_owned hmem
  · exact fun k hk => ⟨(h.free k hk).1, fun hmem => (h.free k hk).2 (List.mem_cons_of_mem _ hmem)⟩
  · have hin := h.inflight
    simp only [playbackOwned, playbackOwned_insert (.out i) hfree] at hin ⊢
    rw [if_pos (show (Xfer.out i).isPlayback = true from rfl)]
    push_cast
    omega
  · have hin := h.captureInflight
    simp only [captureOwned, captureOwned_insert (.out i) hfree] at hin ⊢
    rw [if_pos (show (Xfer.out i).isPlayback = true from rfl)]
    simpa using hin

/-- The pending list has room for a transfer that completes. -/
theorem Serving.pending_length {i : Nat} (h : r.Serving L (.out i)) : r.pending.length < L.card := by
  obtain ⟨hi, hnot⟩ := h.free i rfl
  have hsub : r.pending.toFinset ⊆ L.erase i := by
    intro k hk
    have hk' := List.mem_toFinset.1 hk
    exact Finset.mem_erase.2 ⟨fun he => hnot (he ▸ hk'), h.pending_mem k hk'⟩
  have hcard := Finset.card_le_card hsub
  rw [List.toFinset_card_of_nodup h.pending_nodup, Finset.card_erase_of_mem hi] at hcard
  have := Finset.card_pos.2 ⟨i, hi⟩
  omega

end Rotation

/-! ### The callbacks on the rotation -/

namespace Driver

variable {w : Nat} {d : Driver w} {L : Finset Nat}

def rotation (d : Driver w) : Rotation :=
  { owned := d.usb.owned, pending := d.pending, inflight := d.inflight, captureInflight := d.captureInflight,
    stopRequested := d.stopRequested, transportFailed := d.transportFailed, captureActive := d.cap.captureActive }

theorem noteFeedback_rotation (x : Transfer) : (d.noteFeedback x).rotation = d.rotation := by
  unfold noteFeedback
  split
  · split
    · unfold acceptFeedback; dsimp only; split <;> rfl
    · rfl
  · rfl

theorem resubmitOut_rotation (i : Nat) (implicit ok : Bool) :
    (d.resubmitOut i implicit ok).rotation =
      if ok then d.rotation.submit (.out i) true else d.rotation.retireOut.fail := by
  cases ok <;> rfl

theorem deferTransfer_rotation (i : Nat) :
    (d.deferTransfer i).rotation =
      if d.pending.length < kMaxTransferCount then d.rotation.defer i else d.rotation.retireOut.fail := by
  unfold deferTransfer; split <;> rfl

theorem receiveCapture_rotation (x : Transfer) : (d.receiveCapture x).rotation = d.rotation := by
  simp only [rotation, receiveCapture, Capture.receive_active]

theorem onIso_ok (hL : L.card ≤ kMaxTransferCount) {i : Nat} (h : d.rotation.Serving L (.out i))
    (ok : Xfer → Bool) : (d.onIso i ok).rotation.Ok L := by
  have hresubmit (implicit ok : Bool) {d' : Driver w} (hd : d'.rotation = d.rotation) :
      (d'.resubmitOut i implicit ok).rotation.Ok L := by
    rw [resubmitOut_rotation, hd]
    cases ok
    · exact (h.retireOut rfl).fail
    · exact h.resubmit
  refine onIso_rule (P := fun d' => d'.rotation.Ok L) (fun _ => h.retireOut rfl) (fun _ _ => (h.retireOut rfl).fail)
    ?_ ?_ ?_
  · intro _ _ _ stats
    have hroom : (((d.completeOut i).creditOut i).withStats stats).pending.length < kMaxTransferCount :=
      h.pending_length.trans_le hL
    rw [deferTransfer_rotation, if_pos hroom]
    exact h.defer
  · exact fun _ _ _ _ => hresubmit true (ok (.out i)) rfl
  · exact fun _ _ => hresubmit false (ok (.out i)) rfl

theorem onFeedback_ok {k : Nat} (h : d.rotation.Serving L (.feedback k)) (x : Transfer) (ok : Xfer → Bool) :
    (d.onFeedback k x ok).rotation.Ok L := by
  refine onFeedback_rule (P := fun d' => d'.rotation.Ok L) (h.retireOut rfl) (h.retireOut rfl).fail
    (fun _ _ => ?_) (fun _ _ => ?_)
  · show ((d.noteFeedback x).rotation.submit (.feedback k) true).Ok L
    rw [noteFeedback_rotation]; exact h.resubmit
  · show ((d.noteFeedback x).rotation.submit (.feedback k) false).retireOut.fail.Ok L
    rw [noteFeedback_rotation, Rotation.submit_false]; exact (h.retireOut rfl).fail

theorem submitPendingImplicitTransfers_serving {x : Xfer} (h : d.rotation.Serving L x) (ok : Xfer → Bool) :
    (d.submitPendingImplicitTransfers ok).rotation.Serving L x := by
  have hloop := submitPending_rule ok
    (P := fun d rest => Rotation.Serving { d.rotation with pending := rest } L x)
    (Q := fun d rest => Rotation.Serving { d.rotation with pending := rest } L x)
    (fun _ h => h) (fun _ _ _ _ h _ => h) ?_ (fun _ _ _ h _ _ => h.releasePending) d d.pending h
  · exact hloop
  · intro d i rest h _ _
    have he : ((d.takeAndRefill i).submitPrepared i false).failOut.rotation =
        { d.rotation.fail with inflight := d.rotation.inflight + 1 - 1 } := rfl
    rw [he, show d.rotation.inflight + 1 - 1 = d.rotation.inflight by omega]
    exact h.fail

theorem onCapture_ok {j : Nat} (h : d.rotation.Serving L (.capture j)) (x : Transfer) (ok : Xfer → Bool) :
    (d.onCapture j x ok).rotation.Ok L := by
  have hrel : ((d.receiveCapture x).submitPendingImplicitTransfers ok).rotation.Serving L (.capture j) :=
    submitPendingImplicitTransfers_serving (by rw [receiveCapture_rotation]; exact h) ok
  have hcap : ¬ (Xfer.capture j).isPlayback := Bool.false_ne_true
  refine onCapture_rule (P := fun d' => d'.rotation.Ok L) (fun _ => h.retireCapture hcap)
    (fun _ => (h.retireCapture hcap).fail) (fun _ => hrel.retireCapture hcap) (fun _ _ => hrel.resubmit) (fun _ _ => ?_)
  show (((d.receiveCapture x).submitPendingImplicitTransfers ok).rotation.submit (.capture j) false).retireCapture.fail.Ok L
  rw [Rotation.submit_false]
  exact (hrel.retireCapture hcap).fail

theorem step_ok (hL : L.card ≤ kMaxTransferCount) (h : d.rotation.Ok L) (a : DriverAct) :
    (d.step a).rotation.Ok L := by
  cases a with
  | outDone i status results ok =>
    simp only [step]
    split
    · rename_i hi
      exact onIso_ok hL (d := d.deliverOut i status results) (h.release hi) ok
    · exact h
  | feedbackDone k x ok =>
    simp only [step]
    split
    · rename_i hk
      exact onFeedback_ok (d := d.release (.feedback k)) (h.release hk) x ok
    · exact h
  | captureDone j x ok =>
    simp only [step]
    split
    · rename_i hj
      exact onCapture_ok (d := d.release (.capture j)) (h.release hj) x ok
    · exact h
  | requestStop =>
    exact ⟨⟨h.pending_nodup, h.pending_free, h.pending_mem, h.owned_mem, fun _ => rfl⟩, h.inflight, h.captureInflight⟩
  | readCapturePcm frames =>
    have he : (d.step (.readCapturePcm frames)).rotation = d.rotation := by
      simp only [step, rotation, Capture.readCapturePcm_active]
    rw [he]; exact h
  | writePcm _ _ => exact h
  | submitQuantum _ _ _ _ _ => exact h
  | takePlaybackCredit _ => exact h
  | chargePlaybackCredit _ => exact h
  | discardCaptureFrames _ => exact h
  | beginCaptureLive _ => exact h
  | setPolicy _ _ _ _ => exact h
  | registerPlayback => exact h
  | unregisterPlayback => exact h
  | registerCapture => exact h
  | unregisterCapture => exact h

theorem submitted_ok (d : Driver w) (outs feedbacks captures : Nat) :
    (d.submitted outs feedbacks captures).rotation.Ok (Finset.range outs) := by
  refine ⟨⟨List.nodup_nil, nofun, nofun, ?_, nofun⟩, ?_, ?_⟩
  · intro i hi
    simpa [rotation, submitted] using hi
  · have he : (d.submitted outs feedbacks captures).rotation.playbackOwned =
        (Finset.range outs).image .out ∪ (Finset.range feedbacks).image .feedback := by
      ext x; cases x <;> simp [Rotation.playbackOwned, rotation, submitted, Xfer.isPlayback]
    rw [he, Finset.card_union_of_disjoint (by simp [Finset.disjoint_left]),
      Finset.card_image_of_injective _ fun _ _ => Xfer.out.inj,
      Finset.card_image_of_injective _ fun _ _ => Xfer.feedback.inj, Finset.card_range, Finset.card_range]
    push_cast
    rfl
  · have he : (d.submitted outs feedbacks captures).rotation.captureOwned = (Finset.range captures).image .capture := by
      ext x; cases x <;> simp [Rotation.captureOwned, rotation, submitted, Xfer.isPlayback]
    rw [he, Finset.card_image_of_injective _ fun _ _ => Xfer.capture.inj, Finset.card_range]
    rfl

/-! ### After a stop -/

end Driver

/-- The transfer whose completion an act is. -/
def DriverAct.completes : DriverAct → Option Xfer
  | outDone i _ _ _ => some (.out i)
  | feedbackDone k _ _ => some (.feedback k)
  | captureDone j _ _ => some (.capture j)
  | _ => none

namespace Driver

variable {w : Nat} {d : Driver w} {L : Finset Nat}

/-- After a stop a completion gives its transfer back, and nothing is submitted. -/
theorem step_of_stop (h : d.stopRequested = true) (a : DriverAct) :
    (d.step a).stopRequested = true ∧
    (d.step a).usb = { d.usb with owned := d.usb.owned \ a.completes.toFinset } := by
  have hkeep : d.usb = { d.usb with owned := d.usb.owned \ (none : Option Xfer).toFinset } := by simp
  have hout (x : Xfer) : d.usb.owned.erase x = d.usb.owned \ (some x).toFinset := by
    simp [Finset.erase_eq]
  have hnot {x : Xfer} (hx : x ∉ d.usb.owned) : d.usb = { d.usb with owned := d.usb.owned \ (some x).toFinset } := by
    rw [← hout, Finset.erase_eq_of_notMem hx]
  cases a with
  | outDone i status results ok =>
    simp only [step, DriverAct.completes]
    split
    · have hr : (d.deliverOut i status results).retires i = true := by
        simp [retires, deliverOut, release, h]
      rw [onIso, if_pos hr, ← hout]
      exact ⟨h, rfl⟩
    · rename_i hi; exact ⟨h, hnot hi⟩
  | feedbackDone k x ok =>
    simp only [step, DriverAct.completes]
    split
    · rw [onFeedback, if_pos (.inr h), ← hout]
      exact ⟨h, rfl⟩
    · rename_i hk; exact ⟨h, hnot hk⟩
  | captureDone j x ok =>
    simp only [step, DriverAct.completes]
    split
    · rw [← hout, onCapture]
      split
      · exact ⟨h, rfl⟩
      · rw [if_pos (.inr h)]; exact ⟨h, rfl⟩
    · rename_i hj; exact ⟨h, hnot hj⟩
  | requestStop => exact ⟨rfl, hkeep⟩
  | writePcm _ _ => exact ⟨h, hkeep⟩
  | submitQuantum _ _ _ _ _ => exact ⟨h, hkeep⟩
  | takePlaybackCredit _ => exact ⟨h, hkeep⟩
  | chargePlaybackCredit _ => exact ⟨h, hkeep⟩
  | readCapturePcm _ => exact ⟨h, hkeep⟩
  | discardCaptureFrames _ => exact ⟨h, hkeep⟩
  | beginCaptureLive _ => exact ⟨h, hkeep⟩
  | setPolicy _ _ _ _ => exact ⟨h, hkeep⟩
  | registerPlayback => exact ⟨h, hkeep⟩
  | unregisterPlayback => exact ⟨h, hkeep⟩
  | registerCapture => exact ⟨h, hkeep⟩
  | unregisterCapture => exact ⟨h, hkeep⟩

theorem run_of_stop (h : d.stopRequested = true) (bs : List DriverAct) :
    (run step d bs).usb.calls = d.usb.calls ∧
    ∀ x ∈ (run step d bs).usb.owned, x ∈ d.usb.owned ∧ ∀ a ∈ bs, a.completes ≠ some x := by
  induction bs generalizing d with
  | nil => exact ⟨rfl, fun x hx => ⟨hx, nofun⟩⟩
  | cons a bs ih =>
    obtain ⟨h₁, h₂⟩ := step_of_stop h a
    obtain ⟨h₃, h₄⟩ := ih h₁
    rw [run_cons]
    refine ⟨by rw [h₃, h₂], fun x hx => ?_⟩
    obtain ⟨hmem, hbs⟩ := h₄ x hx
    rw [h₂] at hmem
    obtain ⟨hmem, hne⟩ := Finset.mem_sdiff.1 hmem
    refine ⟨hmem, fun b hb => ?_⟩
    rcases List.mem_cons.1 hb with rfl | hb
    · exact fun he => hne (by simp [he])
    · exact hbs b hb

/-- Once everything owned at a stop has completed, both counters are zero. -/
theorem retired_of_stop (hL : L.card ≤ kMaxTransferCount) (h : d.rotation.Ok L) (hstop : d.stopRequested = true)
    {bs : List DriverAct} (hall : ∀ x ∈ d.usb.owned, ∃ a ∈ bs, a.completes = some x) :
    (run step d bs).inflight = 0 ∧ (run step d bs).captureInflight = 0 := by
  have hnone : (run step d bs).usb.owned = ∅ := by
    refine Finset.eq_empty_of_forall_notMem fun x hx => ?_
    obtain ⟨hx, hno⟩ := (run_of_stop hstop bs).2 x hx
    obtain ⟨a, ha, he⟩ := hall x hx
    exact hno a ha he
  have h' := run_invariant (I := fun d' : Driver w => d'.rotation.Ok L) (fun _ a h => step_ok hL h a) h bs
  refine ⟨h'.inflight.trans ?_, h'.captureInflight.trans ?_⟩
  · simp [Rotation.playbackOwned, rotation, hnone]
  · simp [Rotation.captureOwned, rotation, hnone]

/-- OUT transfer `i` is out of the rotation. -/
def Retired (d : Driver w) (i : Nat) : Prop := .out i ∉ d.usb.owned ∧ i ∉ d.pending

theorem Retired.run {i : Nat} (hr : d.Retired i) (hL : L.card ≤ kMaxTransferCount) (h : d.rotation.Ok L)
    (bs : List DriverAct) : (run step d bs).Retired i := by
  -- the transfers in rotation form a set of their own, which the steps keep
  have hsub : d.rotation.Ok (L.erase i) := by
    refine ⟨⟨h.pending_nodup, h.pending_free, fun k hk => ?_, fun k hk => ?_, h.failed_stop⟩, h.inflight,
      h.captureInflight⟩
    · exact Finset.mem_erase.2 ⟨fun he => hr.2 (he ▸ hk), h.pending_mem k hk⟩
    · exact Finset.mem_erase.2 ⟨fun he => hr.1 (he ▸ hk), h.owned_mem k hk⟩
  have hcard : (L.erase i).card ≤ kMaxTransferCount := (Finset.card_erase_le).trans hL
  have h' := run_invariant (I := fun d' : Driver w => d'.rotation.Ok (L.erase i))
    (fun _ a h => step_ok hcard h a) hsub bs
  exact ⟨fun hi => Finset.notMem_erase i L (h'.owned_mem i hi),
    fun hi => Finset.notMem_erase i L (h'.pending_mem i hi)⟩

end Driver

/-- The transfers over every session of callbacks, whatever libusb answers: an OUT transfer is owned by libusb,
pending exactly once, or retired for good; the counters count what libusb owns; a completing transfer always
finds room in the pending list; and after a stop or a transport failure nothing more is submitted, so that
both counters are zero once everything owned has completed. -/
theorem callbacks_keep_rotation {w : Nat} (c : UserspaceBufferConfig) (hc : c.accepted = true) (d : Driver w)
    (feedbacks captures : Nat) (as : List DriverAct) :
    let s := run Driver.step (d.submitted c.resolvedTransferCount feedbacks captures) as
    (∀ i < c.resolvedTransferCount,
      (.out i ∈ s.usb.owned ∧ s.pending.count i = 0) ∨ (.out i ∉ s.usb.owned ∧ s.pending.count i = 1) ∨
      (s.Retired i ∧ ∀ bs, (run Driver.step s bs).Retired i)) ∧
    s.inflight = (s.usb.owned.filter fun x => x.isPlayback).card ∧
    s.captureInflight = (s.usb.owned.filter fun x => !x.isPlayback).card ∧
    (∀ i, .out i ∈ s.usb.owned → s.pending.length < kMaxTransferCount) ∧
    (s.stopRequested = true ∨ s.transportFailed = true → ∀ bs,
      (run Driver.step s bs).usb.calls = s.usb.calls ∧
      ((∀ x ∈ s.usb.owned, ∃ a ∈ bs, a.completes = some x) →
        (run Driver.step s bs).inflight = 0 ∧ (run Driver.step s bs).captureInflight = 0)) := by
  intro s
  have hL : (Finset.range c.resolvedTransferCount).card ≤ kMaxTransferCount := by
    rw [Finset.card_range]; exact c.resolvedTransferCount_le hc
  have hrun (d' : Driver w) (h : d'.rotation.Ok (Finset.range c.resolvedTransferCount)) (bs : List DriverAct) :
      (run Driver.step d' bs).rotation.Ok (Finset.range c.resolvedTransferCount) :=
    run_invariant (I := fun d' : Driver w => d'.rotation.Ok _) (fun _ a h => Driver.step_ok hL h a) h bs
  have h : s.rotation.Ok (Finset.range c.resolvedTransferCount) := hrun _ (d.submitted_ok _ _ _) as
  refine ⟨fun i hi => ?_, h.inflight, h.captureInflight, fun i hi => ?_, fun hstop bs => ?_⟩
  · by_cases ho : .out i ∈ s.usb.owned
    · exact .inl ⟨ho, List.count_eq_zero.2 fun hp => h.pending_free i hp ho⟩
    · by_cases hp : i ∈ s.pending
      · exact .inr (.inl ⟨ho, List.count_eq_one_of_mem h.pending_nodup hp⟩)
      · exact .inr (.inr ⟨⟨ho, hp⟩, fun bs => Driver.Retired.run ⟨ho, hp⟩ hL h bs⟩)
  · exact (h.release hi).pending_length.trans_le hL
  · have hs : s.stopRequested = true := by
      rcases hstop with hs | hs
      · exact hs
      · exact h.failed_stop hs
    exact ⟨(Driver.run_of_stop hs bs).1, Driver.retired_of_stop hL h hs⟩

/-- Four OUT and two capture transfers, the device unplugged under a capture transfer: nothing is submitted
afterwards. -/
theorem callbacks_keep_rotation_unplugged :
    ∃ d : Driver 64, ∃ as : List DriverAct,
      let s := run Driver.step (d.submitted 4 0 2) as
      s.transportFailed = true ∧ s.inflight = 4 ∧ s.captureInflight = 1 ∧
      s.inflight = (s.usb.owned.filter fun x => x.isPlayback).card ∧
      ∀ bs, (run Driver.step s bs).usb.calls = s.usb.calls := by
  let z : RingSize 64 := .smallest
  let d : Driver 64 := { pb := { ring := Ring.assign z }, cap := { ring := Ring.assign z, captureActive := true } }
  let as : List DriverAct := [.captureDone 1 { status := .noDevice } fun _ => true]
  have h := callbacks_keep_rotation {} (by decide) d 0 2 as
  have hfail : (run Driver.step (d.submitted 4 0 2) as).transportFailed = true := by decide
  exact ⟨d, as, hfail, by decide, by decide, h.2.1, fun bs => (h.2.2.2.2 (.inr hfail) bs).1⟩

end UacDriver

import UacDriver.PrimeGate
import UacDriver.Unwind

/-!
# No transfer is freed while libusb owns it

The transfers and their buffers are freed at three places: the ends of `stopIsoPump` and `stopCapturePump`, and a
`startIsoPump` that fails. libusb writes into a buffer and calls back with `this` for as long as it owns the transfer, so
a free is safe exactly if nothing of its half is owned. `Holds L F C` says that libusb owns at most the OUT transfers in
`L`, the feedback transfers in `F` and the capture transfers in `C`, and that both counters count what it owns; every
callback keeps it for any three sets. `Sound` instantiates it with what is allocated, and every call of the control
thread keeps that, whatever libusb answers, whichever callbacks and client calls run at the places where the call waits or
submits, and whether or not the cancelled transfers retire within the 500 ms.

Each of these runs to its end at its place. A callback that is halfway through when `stopIsoPump` has read `inflight_` is
not among them; what that comes to is in `Teardown`.

`startPlayback` is here with its failures: the submits run next to the event thread, and a refused one tears the output
down again.
-/

namespace UacDriver

open Runs

/-- What happens during one `startPlayback`: libusb's answers, what other threads do before each submit, and what is
served while a refused submit is torn down. -/
structure PlaybackAnswers (w : Nat) where
  submit : Xfer → Bool := fun _ => true
  before : Xfer → Driver w → List DriverAct := fun _ _ => []
  served : Driver w → List DriverAct := fun _ => []

namespace Driver

variable {w : Nat} {d d' : Driver w}

/-- The two submit loops of `submitIsoPump`. -/
def submitInitial (a : PlaybackAnswers w) : List Xfer → Driver w → Driver w × Bool
  | [], d => (d, true)
  | x :: rest, d =>
    let d' := run step d (a.before x d)
    match d'.submitFirst a.submit (fun _ => [d'.feedbackBytes]) x with
    | some d'' => submitInitial a rest d''
    | none => (d'.submit x false [], false)

/-! ### What a callback may submit -/

/-- Between two states libusb was given at most OUT transfers. -/
def OnlyOut (d d' : Driver w) : Prop := ∀ x ∈ d'.usb.owned, x ∈ d.usb.owned ∨ ∃ i, x = .out i

theorem OnlyOut.of_subset (h : d'.usb.owned ⊆ d.usb.owned) : OnlyOut d d' := fun _ hx => .inl (h hx)

theorem onIso_onlyOut (i : Nat) (ok : Xfer → Bool) : OnlyOut d (d.onIso i ok) := by
  refine onIso_rule (P := OnlyOut d) (fun _ => .of_subset subset_rfl) (fun _ _ => .of_subset subset_rfl) ?_ ?_ ?_
  · intro _ _ _ stats
    unfold deferTransfer
    split <;> exact .of_subset subset_rfl
  · intro _ _ _ _
    cases ok (.out i) with
    | true => exact fun x hx => (Finset.mem_insert.1 hx).elim (fun he => .inr ⟨i, he⟩) .inl
    | false => exact .of_subset subset_rfl
  · intro _ _
    cases ok (.out i) with
    | true => exact fun x hx => (Finset.mem_insert.1 hx).elim (fun he => .inr ⟨i, he⟩) .inl
    | false => exact .of_subset subset_rfl

theorem submitPendingImplicitTransfers_onlyOut (ok : Xfer → Bool) :
    OnlyOut d (d.submitPendingImplicitTransfers ok) := by
  refine submitPending_rule ok (P := fun d' _ => OnlyOut d d') (Q := fun d' _ => OnlyOut d d') (fun _ h => h)
    (fun _ _ _ _ h _ => h) (fun _ _ _ h _ _ => h) ?_ d d.pending (.of_subset subset_rfl)
  intro d' i rest h _ _ x hx
  rcases Finset.mem_insert.1 hx with he | hx
  · exact .inr ⟨i, he⟩
  · exact h x hx

/-- A callback may give its own transfer `x` back. -/
def Returns (x : Xfer) (d d' : Driver w) : Prop :=
  ∀ y ∈ d'.usb.owned, y ∈ insert x d.usb.owned ∨ ∃ i, y = .out i

theorem OnlyOut.returns (h : OnlyOut d d') (x : Xfer) : Returns x d d' := fun y hy =>
  (h y hy).imp_left (Finset.mem_insert_of_mem ·)

theorem Returns.submit {x : Xfer} (h : Returns x d d') (ok : Bool) (lengths : List Nat) :
    Returns x d (d'.submit x ok lengths) := by
  cases ok with
  | true =>
    intro y hy
    rcases Finset.mem_insert.1 hy with rfl | hy
    · exact .inl (Finset.mem_insert_self _ _)
    · exact h y hy
  | false => exact h

theorem onCapture_returns (j : Nat) (x : Transfer) (ok : Xfer → Bool) : Returns (.capture j) d (d.onCapture j x ok) := by
  have hsame : OnlyOut d d := .of_subset subset_rfl
  have hpending : OnlyOut d ((d.receiveCapture x).submitPendingImplicitTransfers ok) :=
    submitPendingImplicitTransfers_onlyOut (d := d.receiveCapture x) ok
  refine onCapture_rule (P := Returns (.capture j) d) (fun _ => hsame.returns _) (fun _ => hsame.returns _) ?_ ?_ ?_
  all_goals generalize (d.receiveCapture x).submitPendingImplicitTransfers ok = d' at hpending
  · exact fun _ => hpending.returns _
  · exact fun _ _ => (hpending.returns (.capture j)).submit true x.lengths
  · exact fun _ _ => (hpending.returns (.capture j)).submit false x.lengths

theorem step_onlyOut (d : Driver w) (a : DriverAct) : OnlyOut d (d.step a) := by
  cases a with
  | outDone i status results ok =>
    simp only [step]
    split
    · intro x hx
      exact (onIso_onlyOut (d := d.deliverOut i status results) i ok x hx).imp_left Finset.mem_of_mem_erase
    · exact .of_subset subset_rfl
  | feedbackDone k x ok =>
    simp only [step]
    split
    · rename_i hk
      exact .of_subset ((Waited.onFeedback (d := d.release (.feedback k)) x ok).owned.trans (Finset.insert_erase hk).subset)
    · exact .of_subset subset_rfl
  | captureDone j x ok =>
    simp only [step]
    split
    · rename_i hj
      intro y hy
      refine (onCapture_returns (d := d.release (.capture j)) j x ok y hy).imp_left fun hy => ?_
      exact (Finset.insert_erase hj).subset hy
    · exact .of_subset subset_rfl
  | _ => exact .of_subset subset_rfl

/-! ### What is allocated stays -/

/-- The sizes of the allocation and whether playback was started. -/
def pump (d : Driver w) : Nat × Nat × Nat × Bool :=
  (d.outCount, d.feedbackCount, d.geometry.transferCount, d.pb.playbackStarted)

theorem pump_of_eventSide {pb : Playback w} (h : pb.eventSide = d.pb.eventSide) :
    ({ d with pb } : Driver w).pump = d.pump := by
  have hstarted : pb.playbackStarted = d.pb.playbackStarted := congrArg (·.2.2) h
  simp only [pump, hstarted]

theorem creditOut_pump (i : Nat) : ((d.completeOut i).creditOut i).pump = d.pump := by
  have hstarted : ((d.completeOut i).creditOut i).pb.playbackStarted = d.pb.playbackStarted := by
    simp only [creditOut]
    split <;> rfl
  rw [pump, hstarted]
  rfl

theorem resubmitOut_pump (i : Nat) (implicit ok : Bool) : (d.resubmitOut i implicit ok).pump = d.pump := by
  cases ok <;> rfl

theorem deferTransfer_pump (i : Nat) : (d.deferTransfer i).pump = d.pump := by
  unfold deferTransfer
  split <;> rfl

theorem takeAndRefill_pump (i : Nat) : (d.takeAndRefill i).pump = d.pump :=
  pump_of_eventSide (refill_eventSide ..)

theorem refillScheduled_pump (i : Nat) : (d.refillScheduled i).pump = d.pump :=
  pump_of_eventSide (refill_eventSide ..)

theorem onIso_pump (i : Nat) (ok : Xfer → Bool) : (d.onIso i ok).pump = d.pump := by
  refine onIso_rule (P := fun d' => d'.pump = d.pump) (fun _ => rfl) (fun _ _ => rfl) ?_ ?_ ?_
  · intro _ _ _ stats
    rw [deferTransfer_pump]
    exact creditOut_pump (d := d) i
  · intro _ _ _ _
    rw [resubmitOut_pump, takeAndRefill_pump, creditOut_pump]
  · intro _ _
    rw [resubmitOut_pump, refillScheduled_pump, creditOut_pump]

theorem noteFeedback_pump (x : Transfer) : (d.noteFeedback x).pump = d.pump := by
  unfold noteFeedback acceptFeedback
  split
  · split
    · dsimp only
      split <;> rfl
    · rfl
  · rfl

theorem onFeedback_pump (k : Nat) (x : Transfer) (ok : Xfer → Bool) : (d.onFeedback k x ok).pump = d.pump := by
  have hnote : (d.noteFeedback x).pump = d.pump := noteFeedback_pump x
  refine onFeedback_rule (P := fun d' => d'.pump = d.pump) rfl rfl ?_ ?_
  all_goals
    generalize d.noteFeedback x = noted at hnote
    intros
    exact hnote

theorem submitPendingImplicitTransfers_pump (ok : Xfer → Bool) : (d.submitPendingImplicitTransfers ok).pump = d.pump := by
  refine submitPending_rule ok (P := fun d' _ => d'.pump = d.pump) (Q := fun d' _ => d'.pump = d.pump) (fun _ h => h)
    (fun _ _ _ _ h _ => h) ?_ ?_ d d.pending rfl
  · intro d' i _ h _ _
    exact (takeAndRefill_pump i).trans h
  · intro d' i _ h _ _
    exact (takeAndRefill_pump i).trans h

theorem onCapture_pump (j : Nat) (x : Transfer) (ok : Xfer → Bool) : (d.onCapture j x ok).pump = d.pump := by
  have hrel : ((d.receiveCapture x).submitPendingImplicitTransfers ok).pump = d.pump :=
    submitPendingImplicitTransfers_pump ok
  refine onCapture_rule (P := fun d' => d'.pump = d.pump) (fun _ => rfl) (fun _ => rfl) ?_ ?_ ?_
  all_goals
    generalize (d.receiveCapture x).submitPendingImplicitTransfers ok = x' at hrel
    intros
    exact hrel

theorem step_pump (d : Driver w) (a : DriverAct) : (d.step a).pump = d.pump := by
  cases a with
  | outDone i status results ok =>
    simp only [step]
    split
    · exact onIso_pump i ok
    · rfl
  | feedbackDone k x ok =>
    simp only [step]
    split
    · exact onFeedback_pump k x ok
    · rfl
  | captureDone j x ok =>
    simp only [step]
    split
    · exact onCapture_pump j x ok
    · rfl
  | writePcm data frames => exact pump_of_eventSide (Playback.writePcm_eventSide data frames)
  | submitQuantum accepting policy frames packed charge =>
    exact pump_of_eventSide (Playback.submitQuantum_eventSide _ _ _ _ _ _)
  | takePlaybackCredit frames => exact pump_of_eventSide (Playback.takePlaybackCredit_eventSide frames)
  | chargePlaybackCredit frames => exact pump_of_eventSide (Playback.chargePlaybackCredit_eventSide frames)
  | _ => rfl

theorem run_pump (as : List DriverAct) : (run step d as).pump = d.pump :=
  run_invariant (I := fun d' : Driver w => d'.pump = d.pump) (fun d' a h => (step_pump d' a).trans h) rfl as

/-- The transfer count of the pumps to come is one that the requests allow. -/
def CountInRange (d : Driver w) : Prop :=
  0 < d.geometry.transferCount ∧ d.geometry.transferCount ≤ kMaxTransferCount

theorem counts_of_pump (h : d'.pump = d.pump) : d'.counts = d.counts := congrArg (fun p => (p.1, p.2.1)) h

theorem CountInRange.of_pump (hc : d.CountInRange) (h : d'.pump = d.pump) : d'.CountInRange := by
  have hcount : d'.geometry.transferCount = d.geometry.transferCount := congrArg (·.2.2.1) h
  rw [CountInRange, hcount]
  exact hc

/-! ### Holding -/

/-- libusb owns at most the transfers in the three sets, and the counters count what it owns. -/
structure Holds (d : Driver w) (L F C : Finset Nat) : Prop where
  ok : d.rotation.Ok L
  room : L.card ≤ kMaxTransferCount
  feedback : ∀ k, .feedback k ∈ d.usb.owned → k ∈ F
  capture : ∀ j, .capture j ∈ d.usb.owned → j ∈ C

namespace Holds

variable {L L' F F' C C' : Finset Nat}

theorem step (h : d.Holds L F C) (a : DriverAct) : (d.step a).Holds L F C := by
  have honly := step_onlyOut d a
  refine ⟨step_ok h.room h.ok a, h.room, fun k hk => ?_, fun j hj => ?_⟩
  · rcases honly _ hk with hk | ⟨i, he⟩
    · exact h.feedback k hk
    · cases he
  · rcases honly _ hj with hj | ⟨i, he⟩
    · exact h.capture j hj
    · cases he

theorem run (h : d.Holds L F C) (as : List DriverAct) : (Runs.run Driver.step d as).Holds L F C :=
  run_invariant (I := fun d' : Driver w => d'.Holds L F C) (fun _ a h => h.step a) h as

theorem mono (h : d.Holds L F C) (hL : L ⊆ L') (hroom : L'.card ≤ kMaxTransferCount) (hF : F ⊆ F') (hC : C ⊆ C') :
    d.Holds L' F' C' := by
  refine ⟨⟨⟨h.ok.pending_nodup, h.ok.pending_free, fun i hi => hL (h.ok.pending_mem i hi),
    fun i hi => hL (h.ok.owned_mem i hi), h.ok.failed_stop⟩, h.ok.inflight, h.ok.captureInflight⟩, hroom, ?_, ?_⟩
  · exact fun k hk => hF (h.feedback k hk)
  · exact fun j hj => hC (h.capture j hj)

/-- The same transfers held, the same flags. -/
theorem congr (h : d.Holds L F C) (he : d'.rotation = { d.rotation with captureActive := d'.cap.captureActive }) :
    d'.Holds L F C := by
  have howned : d'.usb.owned = d.usb.owned := congrArg Rotation.owned he
  refine ⟨?_, h.room, fun k hk => h.feedback k (howned ▸ hk), fun j hj => h.capture j (howned ▸ hj)⟩
  rw [he]
  exact ⟨⟨h.ok.pending_nodup, h.ok.pending_free, h.ok.pending_mem, h.ok.owned_mem, h.ok.failed_stop⟩, h.ok.inflight,
    h.ok.captureInflight⟩

theorem of_rotation (h : d.Holds L F C) (he : d'.rotation = d.rotation) : d'.Holds L F C := by
  have hactive : d'.cap.captureActive = d.cap.captureActive := congrArg Rotation.captureActive he
  refine h.congr ?_
  rw [he, hactive]
  rfl

theorem requested (h : d.Holds L F C) (he : d'.rotation =
    { d.rotation with stopRequested := true, captureActive := d'.cap.captureActive }) : d'.Holds L F C := by
  have howned : d'.usb.owned = d.usb.owned := congrArg Rotation.owned he
  refine ⟨?_, h.room, fun k hk => h.feedback k (howned ▸ hk), fun j hj => h.capture j (howned ▸ hj)⟩
  rw [he]
  exact ⟨⟨h.ok.pending_nodup, h.ok.pending_free, h.ok.pending_mem, h.ok.owned_mem, fun _ => rfl⟩, h.ok.inflight,
    h.ok.captureInflight⟩

/-- A playback count of zero: nothing of the output is owned. -/
theorem output_none (h : d.Holds L F C) (hout : d.inflight = 0) : ∀ x ∈ d.usb.owned, x.isPlayback = false := by
  have hnone : d.rotation.playbackOwned = ∅ := Finset.card_eq_zero.1 (Int.ofNat_eq_zero.1 (h.ok.inflight.symm.trans hout))
  intro x hx
  rw [← Bool.not_eq_true]
  exact fun hp => Finset.notMem_empty x (hnone ▸ Finset.mem_filter.2 ⟨hx, hp⟩)

/-- A capture count of zero: nothing of the capture half is owned. -/
theorem capture_none (h : d.Holds L F C) (hcapture : d.captureInflight = 0) : ∀ j, .capture j ∉ d.usb.owned := by
  have hnone : d.rotation.captureOwned = ∅ :=
    Finset.card_eq_zero.1 (Int.ofNat_eq_zero.1 (h.ok.captureInflight.symm.trans hcapture))
  exact fun j hj => Finset.notMem_empty (Xfer.capture j) (hnone ▸ Finset.mem_filter.2 ⟨hj, rfl⟩)

/-- No OUT and no feedback transfer is there to be owned: the playback count is zero. -/
theorem inflight_eq_zero (h : d.Holds ∅ ∅ C) : d.inflight = 0 := by
  refine h.ok.inflight.trans (Int.ofNat_eq_zero.2 (Finset.card_eq_zero.2 (Finset.eq_empty_of_forall_notMem fun x hx => ?_)))
  obtain ⟨hx, hp⟩ := Finset.mem_filter.1 hx
  cases x with
  | out i => exact Finset.notMem_empty i (h.ok.owned_mem i hx)
  | feedback k => exact Finset.notMem_empty k (h.feedback k hx)
  | capture j => cases hp

theorem captureInflight_eq_zero (h : d.Holds L F ∅) : d.captureInflight = 0 := by
  refine h.ok.captureInflight.trans
    (Int.ofNat_eq_zero.2 (Finset.card_eq_zero.2 (Finset.eq_empty_of_forall_notMem fun x hx => ?_)))
  obtain ⟨hx, hp⟩ := Finset.mem_filter.1 hx
  cases x with
  | capture j => exact Finset.notMem_empty j (h.capture j hx)
  | out i => cases hp
  | feedback k => cases hp

theorem owned_eq_empty (h : d.Holds ∅ ∅ ∅) : d.usb.owned = ∅ :=
  Driver.owned_eq_empty h.ok h.inflight_eq_zero h.captureInflight_eq_zero

/-- The output half is freed. -/
theorem freeOut (h : d.Holds L F C) (hout : d.inflight = 0) : d.freeOut.Holds ∅ ∅ C := by
  refine ⟨freeOut_ok h.ok hout, by simp, fun k hk => ?_, h.capture⟩
  cases h.output_none hout _ hk

/-- The capture half is freed. -/
theorem freeCapture (h : d.Holds L F C) (hcapture : d.captureInflight = 0) : d.freeCapture.Holds L F ∅ :=
  ⟨h.ok, h.room, h.feedback, fun j hj => absurd hj (h.capture_none hcapture j)⟩

/-- A session reset behind a driver of which libusb owns nothing. -/
theorem reset (howned : d.usb.owned = ∅) (hpending : d.pending = []) (hout : d.inflight = 0)
    (hcapture : d.captureInflight = 0) (hfailed : d.transportFailed = true → d.stopRequested = true) (C : Finset Nat) :
    d.Holds ∅ ∅ C := by
  refine ⟨ok_of_empty howned hpending hout hcapture hfailed, by simp, fun k hk => ?_, fun j hj => ?_⟩
  · exact absurd (howned ▸ hk) (Finset.notMem_empty _)
  · exact absurd (howned ▸ hj) (Finset.notMem_empty _)

/-- One OUT transfer more, which nobody has: counted, then given to libusb. -/
theorem enterOut (h : d.Holds L F C) {i : Nat} (hi : i ∉ L) (hroom : (insert i L).card ≤ kMaxTransferCount)
    (he : d'.rotation = (d.rotation.enter (.out i)).submit (.out i) true) : d'.Holds (insert i L) F C := by
  have h' := h.mono (Finset.subset_insert i L) hroom subset_rfl subset_rfl
  have howned : d'.usb.owned = insert (.out i) d.usb.owned := congrArg Rotation.owned he
  refine ⟨?_, hroom, fun k hk => ?_, fun j hj => ?_⟩
  · rw [he]
    refine (h'.ok.enter (fun hx => hi (h.ok.owned_mem i hx)) ?_).resubmit
    rintro _ ⟨⟩
    exact ⟨Finset.mem_insert_self i L, fun hp => hi (h.ok.pending_mem i hp)⟩
  · exact h.feedback k ((Finset.mem_insert.1 (howned ▸ hk)).resolve_left fun he => by cases he)
  · exact h.capture j ((Finset.mem_insert.1 (howned ▸ hj)).resolve_left fun he => by cases he)

theorem enterFeedback (h : d.Holds L F C) {k : Nat} (hk : k ∉ F)
    (he : d'.rotation = (d.rotation.enter (.feedback k)).submit (.feedback k) true) : d'.Holds L (insert k F) C := by
  have howned : d'.usb.owned = insert (.feedback k) d.usb.owned := congrArg Rotation.owned he
  refine ⟨?_, h.room, fun i hi => ?_, fun j hj => ?_⟩
  · rw [he]
    refine (h.ok.enter (fun hx => hk (h.feedback k hx)) ?_).resubmit
    rintro _ ⟨⟩
  · rcases Finset.mem_insert.1 (howned ▸ hi) with he | hi
    · exact Xfer.feedback.inj he ▸ Finset.mem_insert_self _ _
    · exact Finset.mem_insert_of_mem (h.feedback i hi)
  · exact h.capture j ((Finset.mem_insert.1 (howned ▸ hj)).resolve_left fun he => by cases he)

theorem enterCapture (h : d.Holds L F C) {j : Nat} (hj : j ∈ C) (hfree : .capture j ∉ d.usb.owned)
    (he : d'.rotation = (d.rotation.enter (.capture j)).submit (.capture j) true) : d'.Holds L F C := by
  have howned : d'.usb.owned = insert (.capture j) d.usb.owned := congrArg Rotation.owned he
  refine ⟨?_, h.room, fun k hk => ?_, fun i hi => ?_⟩
  · rw [he]
    refine (h.ok.enter hfree ?_).resubmit
    rintro _ ⟨⟩
  · exact h.feedback k ((Finset.mem_insert.1 (howned ▸ hk)).resolve_left fun he => by cases he)
  · rcases Finset.mem_insert.1 (howned ▸ hi) with he | hi
    · exact Xfer.capture.inj he ▸ hj
    · exact h.capture i hi

end Holds

variable {L L' F F' C : Finset Nat}

/-- The two submit loops, over transfers that nobody has. -/
theorem submitInitial_holds (a : PlaybackAnswers w) (hroom : L'.card ≤ kMaxTransferCount) (xs : List Xfer) (hxs : xs.Nodup)
    {d : Driver w} (h : d.Holds L F C) (hL : L ⊆ L') (hF : F ⊆ F') (hout : ∀ i, .out i ∈ xs → i ∈ L' ∧ i ∉ L)
    (hfeedback : ∀ k, .feedback k ∈ xs → k ∈ F' ∧ k ∉ F) (hcapture : ∀ j, .capture j ∉ xs) :
    (submitInitial a xs d).1.Holds L' F' C ∧ (submitInitial a xs d).1.pump = d.pump := by
  induction xs generalizing d L F with
  | nil => exact ⟨h.mono hL hroom hF subset_rfl, rfl⟩
  | cons x xs ih =>
    obtain ⟨hx, hnodup⟩ := List.nodup_cons.1 hxs
    have h₁ := h.run (a.before x d)
    have hpump := run_pump (d := d) (a.before x d)
    rw [submitInitial]
    generalize run step d (a.before x d) = d₁ at h₁ hpump
    have hrest (i : Nat) (hi : .out i ∈ xs) : i ∈ L' ∧ i ∉ L := hout i (List.mem_cons_of_mem x hi)
    have hrest' (k : Nat) (hk : .feedback k ∈ xs) : k ∈ F' ∧ k ∉ F := hfeedback k (List.mem_cons_of_mem x hk)
    have hnone (j : Nat) (hj : .capture j ∈ xs) : False := hcapture j (List.mem_cons_of_mem x hj)
    cases hok : a.submit x with
    | false =>
      simp only [submitFirst, hok, Bool.false_eq_true, if_false]
      have hrefused : (d₁.submit x false []).Holds L F C := h₁.congr rfl
      exact ⟨hrefused.mono hL hroom hF subset_rfl, hpump⟩
    | true =>
      simp only [submitFirst, hok, if_true]
      cases x with
      | out i =>
        obtain ⟨hi, hfree⟩ := hout i List.mem_cons_self
        have hsub : insert i L ⊆ L' := Finset.insert_subset hi hL
        have hentered : (((({ d₁ with inflight := d₁.inflight + 1 } : Driver w).submit (.out i) true
            (d₁.transfers i).lengths).queueSubmitted i false)).Holds (insert i L) F C := by
          refine h₁.enterOut hfree ((Finset.card_le_card hsub).trans hroom) ?_
          simp only [Rotation.enter, Xfer.isPlayback, if_true, Int.add_zero]
          rfl
        have hlater (k : Nat) (hk : .out k ∈ xs) : k ∈ L' ∧ k ∉ insert i L := by
          refine ⟨(hrest k hk).1, fun hmem => ?_⟩
          rcases Finset.mem_insert.1 hmem with rfl | hmem
          · exact hx hk
          · exact (hrest k hk).2 hmem
        obtain ⟨hholds, hkept⟩ := ih hnodup hentered hsub hF hlater hrest' hnone
        exact ⟨hholds, hkept.trans hpump⟩
      | feedback k =>
        obtain ⟨hk, hfree⟩ := hfeedback k List.mem_cons_self
        have hsub : insert k F ⊆ F' := Finset.insert_subset hk hF
        have hentered : (({ d₁ with inflight := d₁.inflight + 1 } : Driver w).submit (.feedback k) true
            [d₁.feedbackBytes]).Holds L (insert k F) C := by
          refine h₁.enterFeedback hfree ?_
          simp only [Rotation.enter, Xfer.isPlayback, if_true, Int.add_zero]
          rfl
        have hlater (i : Nat) (hi : .feedback i ∈ xs) : i ∈ F' ∧ i ∉ insert k F := by
          refine ⟨(hrest' i hi).1, fun hmem => ?_⟩
          rcases Finset.mem_insert.1 hmem with rfl | hmem
          · exact hx hi
          · exact (hrest' i hi).2 hmem
        obtain ⟨hholds, hkept⟩ := ih hnodup hentered hL hsub hrest hlater hnone
        exact ⟨hholds, hkept.trans hpump⟩
      | capture j => exact absurd List.mem_cons_self (hcapture j)

theorem filled_kept (d : Driver w) (is : List Nat) :
    (is.foldl primeOut d).rotation = d.rotation ∧ (is.foldl primeOut d).pump = d.pump := by
  induction is generalizing d with
  | nil => exact ⟨rfl, rfl⟩
  | cons i is ih =>
    obtain ⟨hrotation, hpump⟩ := ih (d.primeOut i)
    exact ⟨hrotation, hpump.trans (pump_of_eventSide (Playback.primeTransfer_eventSide ..))⟩

/-- The initial submission of an output of which nothing is out. -/
theorem submitFilled_holds (a : PlaybackAnswers w) {d : Driver w} (h : d.Holds ∅ ∅ C)
    (hroom : (Finset.range d.outCount).card ≤ kMaxTransferCount) :
    let r := submitInitial a d.initialXfers ((List.range d.outCount).foldl primeOut d)
    r.1.Holds (Finset.range d.outCount) (Finset.range d.feedbackCount) C ∧ r.1.pump = d.pump := by
  obtain ⟨hrotation, hpump⟩ := filled_kept d (List.range d.outCount)
  have hfilled := h.of_rotation hrotation
  have hout (i : Nat) (hi : .out i ∈ d.initialXfers) : i ∈ Finset.range d.outCount ∧ i ∉ (∅ : Finset Nat) :=
    ⟨by simpa [initialXfers] using hi, Finset.notMem_empty i⟩
  have hfeedback (k : Nat) (hk : .feedback k ∈ d.initialXfers) : k ∈ Finset.range d.feedbackCount ∧ k ∉ (∅ : Finset Nat) :=
    ⟨by simpa [initialXfers] using hk, Finset.notMem_empty k⟩
  obtain ⟨hholds, hkept⟩ := submitInitial_holds a hroom d.initialXfers initialXfers_nodup hfilled (Finset.empty_subset _)
    (Finset.empty_subset _) hout hfeedback fun j hj => by simp [initialXfers] at hj
  exact ⟨hholds, hkept.trans hpump⟩

/-- The submit loop of the capture pump, over transfers of which libusb owns none. -/
theorem submitCaptures_holds (lengths : List Nat) (a : Answers w) (js : List Nat) (hjs : js.Nodup) {d : Driver w}
    (h : d.Holds L F C) (hC : ∀ j ∈ js, j ∈ C) (hfree : ∀ j ∈ js, .capture j ∉ d.usb.owned) :
    (submitCaptures lengths a js d).1.Holds L F C ∧ (submitCaptures lengths a js d).1.pump = d.pump := by
  induction js generalizing d with
  | nil => exact ⟨h, rfl⟩
  | cons j js ih =>
    obtain ⟨hj, hnodup⟩ := List.nodup_cons.1 hjs
    have h₁ := h.run (a.others (.captureSubmit j) d)
    have hpump := run_pump (d := d) (a.others (.captureSubmit j) d)
    have honly := run_invariant (I := fun d' : Driver w => ∀ i, .capture i ∈ d'.usb.owned → .capture i ∈ d.usb.owned)
      (fun d' b hd i hi => (step_onlyOut d' b _ hi).elim (hd i) fun ⟨_, he⟩ => by cases he) (fun _ hi => hi)
      (a.others (.captureSubmit j) d)
    rw [submitCaptures]
    dsimp only
    generalize run step d (a.others (.captureSubmit j) d) = d₁ at h₁ hpump honly
    split
    · have hentered : (({ d₁ with captureInflight := d₁.captureInflight + 1 } : Driver w).submit (.capture j) true
          lengths).Holds L F C := by
        refine h₁.enterCapture (hC j List.mem_cons_self) (fun hmem => hfree j List.mem_cons_self (honly j hmem)) ?_
        simp only [Rotation.enter, Xfer.isPlayback, Bool.false_eq_true, if_false, Int.add_zero]
        rfl
      obtain ⟨hholds, hkept⟩ := ih hnodup hentered (fun i hi => hC i (List.mem_cons_of_mem j hi)) fun i hi hmem => by
        rcases Finset.mem_insert.1 hmem with he | hmem
        · exact hj (Xfer.capture.inj he ▸ hi)
        · exact hfree i (List.mem_cons_of_mem j hi) (honly i hmem)
      exact ⟨hholds, hkept.trans hpump⟩
    · exact ⟨h₁.requested rfl, hpump⟩

end Driver

/-! ### The start of playback -/

namespace Host

variable {w : Nat}

/-- `submitIsoPump`: a refused submit stops the output again. -/
def submitIsoPump (h : Host w) (a : PlaybackAnswers w) : Host w × Bool :=
  if h.drv.stopRequested then (h, false)
  else if h.drv.stride = 0 ∨ h.drv.pb.startupPrimeFrames > h.drv.pb.bufferedFrames then h.err .isoPumpSubmitFailed
  else
    let (d, submitted) := Driver.submitInitial a h.drv.initialXfers ((List.range h.drv.outCount).foldl Driver.primeOut h.drv)
    if submitted then (h.withDriver { d with pb := { d.pb with playbackStarted := true }, streaming := true }, true)
    else ((stopIsoPump { h with drv := d, lastError := .isoPumpSubmitFailed } (a.served d)).1, false)

def setStarted (h : Host w) (playbackStarted : Bool) : Host w :=
  h.withDriver { h.drv with pb := { h.drv.pb with playbackStarted } }

def startPlayback (h : Host w) (a : PlaybackAnswers w) : Host w × Bool :=
  if h.drv.pb.playbackStarted then (h, false)
  else
    let (h₁, submitted) := (h.setStarted true).submitIsoPump a
    if submitted then (h₁, true) else (h₁.setStarted false, false)

/-! ### What every call keeps -/

/-- libusb owns nothing that is not allocated. Before `startPlayback` it owns nothing of the output, nothing is
allocated on a closed device, and an event thread that runs is one that the next stop will join. -/
structure Sound (h : Host w) : Prop where
  holds : h.drv.Holds (Finset.range h.drv.outCount) (Finset.range h.drv.feedbackCount) (Finset.range h.captureCount)
  quiet : h.drv.pb.playbackStarted = false → h.drv.stopRequested = false → h.drv.Holds ∅ ∅ (Finset.range h.captureCount)
  closed : h.device = false → h.drv.counts = (0, 0) ∧ h.captureCount = 0
  thread : h.eventThread = true → h.interfaceClaimed = true ∨ h.drv.outCount ≠ 0
  paired : h.drv.outCount = 0 → h.drv.feedbackCount = 0
  count : h.drv.CountInRange

/-- Sound, with nothing allocated and nobody servicing libusb. -/
structure Idle (h : Host w) : Prop extends Sound h where
  counts : h.drv.counts = (0, 0)
  captures : h.captureCount = 0
  joined : h.eventThread = false

/-- Sound, with no OUT and no feedback transfer yet. -/
structure Preparing (h : Host w) : Prop extends Sound h where
  counts : h.drv.counts = (0, 0)
  opened : h.device = true
  claimed : h.interfaceClaimed = true

variable {h h' : Host w}

/-- What `Sound` reads besides the driver. -/
def lifecycle (h : Host w) : Bool × Nat × Bool × Bool := (h.device, h.captureCount, h.eventThread, h.interfaceClaimed)

theorem Idle.of (hholds : h.drv.Holds ∅ ∅ ∅) (hcounts : h.drv.counts = (0, 0)) (hcaptures : h.captureCount = 0)
    (hjoined : h.eventThread = false) (hcount : h.drv.CountInRange) : h.Idle := by
  have hout : h.drv.outCount = 0 := congrArg Prod.fst hcounts
  have hfeedback : h.drv.feedbackCount = 0 := congrArg Prod.snd hcounts
  refine ⟨⟨?_, fun _ _ => ?_, fun _ => ⟨hcounts, hcaptures⟩, fun hthread => ?_, fun _ => hfeedback, hcount⟩, hcounts, hcaptures,
    hjoined⟩
  · rw [hout, hfeedback, hcaptures]
    exact hholds
  · rw [hcaptures]
    exact hholds
  · cases hjoined.symm.trans hthread

theorem Preparing.of (hholds : h.drv.Holds ∅ ∅ (Finset.range h.captureCount)) (hcounts : h.drv.counts = (0, 0))
    (hopened : h.device = true) (hclaimed : h.interfaceClaimed = true) (hcount : h.drv.CountInRange) : h.Preparing := by
  have hout : h.drv.outCount = 0 := congrArg Prod.fst hcounts
  have hfeedback : h.drv.feedbackCount = 0 := congrArg Prod.snd hcounts
  refine ⟨⟨?_, fun _ _ => hholds, fun hclosed => ?_, fun _ => .inl hclaimed, fun _ => hfeedback, hcount⟩, hcounts, hopened,
    hclaimed⟩
  · rw [hout, hfeedback]
    exact hholds
  · cases hclosed.symm.trans hopened

/-- Nothing is allocated, so nothing is owned. -/
theorem Sound.nothing (hs : h.Sound) (hcounts : h.drv.counts = (0, 0)) (hcaptures : h.captureCount = 0) :
    h.drv.Holds ∅ ∅ ∅ := by
  have hout : h.drv.outCount = 0 := congrArg Prod.fst hcounts
  have hfeedback : h.drv.feedbackCount = 0 := congrArg Prod.snd hcounts
  have hholds := hs.holds
  rw [hout, hfeedback, hcaptures] at hholds
  exact hholds

theorem Idle.nothing (hi : h.Idle) : h.drv.Holds ∅ ∅ ∅ := hi.toSound.nothing hi.counts hi.captures

theorem Preparing.noOutput (hp : h.Preparing) : h.drv.Holds ∅ ∅ (Finset.range h.captureCount) := by
  have hout : h.drv.outCount = 0 := congrArg Prod.fst hp.counts
  have hfeedback : h.drv.feedbackCount = 0 := congrArg Prod.snd hp.counts
  have hholds := hp.holds
  rw [hout, hfeedback] at hholds
  exact hholds

/-- A call that keeps what is held, whatever that is, and the allocation. -/
theorem Sound.carry (hs : h.Sound) (hholds : ∀ L F C, h.drv.Holds L F C → h'.drv.Holds L F C)
    (hstop : h.drv.stopRequested = true → h'.drv.stopRequested = true) (hpump : h'.drv.pump = h.drv.pump)
    (hlifecycle : h'.lifecycle = h.lifecycle) : h'.Sound := by
  have hcount := hs.count.of_pump hpump
  simp only [Driver.pump, Prod.mk.injEq] at hpump
  simp only [lifecycle, Prod.mk.injEq] at hlifecycle
  obtain ⟨hout, hfeedback, -, hstarted⟩ := hpump
  obtain ⟨hdevice, hcaptures, hthread, hclaimed⟩ := hlifecycle
  refine ⟨?_, ?_, ?_, ?_, ?_, hcount⟩
  · rw [hout, hfeedback, hcaptures]
    exact hholds _ _ _ hs.holds
  · rw [hstarted, hcaptures]
    intro hquiet hrunning
    refine hholds _ _ _ (hs.quiet hquiet ?_)
    rw [← Bool.not_eq_true] at hrunning ⊢
    exact fun hrequested => hrunning (hstop hrequested)
  · rw [Driver.counts, hdevice, hout, hfeedback, hcaptures]
    exact hs.closed
  · rw [hthread, hclaimed, hout]
    exact hs.thread
  · rw [hout, hfeedback]
    exact hs.paired

/-- A call that touches none of what is held. -/
theorem Sound.congr (hs : h.Sound)
    (hrotation : h'.drv.rotation = { h.drv.rotation with captureActive := h'.drv.cap.captureActive })
    (hpump : h'.drv.pump = h.drv.pump) (hlifecycle : h'.lifecycle = h.lifecycle) : h'.Sound := by
  have hstop : h'.drv.stopRequested = h.drv.stopRequested := congrArg Rotation.stopRequested hrotation
  exact hs.carry (fun _ _ _ hholds => hholds.congr hrotation) (fun hrequested => hstop.trans hrequested) hpump hlifecycle

theorem Sound.err (hs : h.Sound) (code : StartError) : (h.err code).1.Sound := hs.congr rfl rfl rfl

/-- Whatever the event thread and the clients do. -/
theorem Sound.served (hs : h.Sound) (as : List DriverAct) : (h.withDriver (run Driver.step h.drv as)).Sound :=
  hs.carry (fun _ _ _ hholds => hholds.run as) (fun hrequested => Driver.stopRequested_run hrequested as)
    (Driver.run_pump as) rfl

/-- A stop is requested. -/
theorem Sound.requested (hs : h.Sound)
    (hrotation : h'.drv.rotation =
      { h.drv.rotation with stopRequested := true, captureActive := h'.drv.cap.captureActive })
    (hpump : h'.drv.pump = h.drv.pump) (hlifecycle : h'.lifecycle = h.lifecycle) : h'.Sound :=
  hs.carry (fun _ _ _ hholds => hholds.requested hrotation) (fun _ => congrArg Rotation.stopRequested hrotation) hpump
    hlifecycle

/-! ### Stopping -/

/-- The two ends of `stopIsoPump`, in the state the wait ends in. -/
theorem stopIsoPump_cases (h : Host w) (served : List DriverAct) :
    let d := run Driver.step { h.drv with stopRequested := true } served
    (d.inflight ≠ 0 ∧ h.stopIsoPump served = ({ h with drv := d, lifecycleFailures := h.lifecycleFailures + 1 }, false)) ∨
    (d.inflight = 0 ∧ h.stopIsoPump served = ({ h with drv := d.freeOut, eventThread := false }, true)) := by
  unfold Host.stopIsoPump Driver.stopIsoPump
  dsimp only
  generalize run Driver.step { h.drv with stopRequested := true } served = d
  by_cases hin : d.inflight ≠ 0
  · rw [if_pos hin]
    exact .inl ⟨hin, rfl⟩
  · rw [if_neg hin]
    exact .inr ⟨not_not.1 hin, rfl⟩

theorem stopCapturePump_cases (h : Host w) (served : List DriverAct) :
    let d := run Driver.step h.drv served
    (d.captureInflight ≠ 0 ∧
      h.stopCapturePump served = ({ h with drv := d, lifecycleFailures := h.lifecycleFailures + 1 }, false)) ∨
    (d.captureInflight = 0 ∧ h.stopCapturePump served = ({ h with drv := d.freeCapture, captureCount := 0 }, true)) := by
  unfold Host.stopCapturePump Driver.stopCapturePump
  dsimp only
  generalize run Driver.step h.drv served = d
  by_cases hin : d.captureInflight ≠ 0
  · rw [if_pos hin]
    exact .inl ⟨hin, rfl⟩
  · rw [if_neg hin]
    exact .inr ⟨not_not.1 hin, rfl⟩

/-- `stopIsoPump` frees the output only if nothing of it is owned, and joins the event thread with it. It gives up only on
an output that is there. -/
theorem Sound.stopIsoPump (hs : h.Sound) (served : List DriverAct) :
    let r := h.stopIsoPump served
    r.1.Sound ∧ r.1.side = h.side ∧ r.1.captureCount = h.captureCount ∧
    ((r.2 = true ∧ r.1.drv.counts = (0, 0) ∧ r.1.eventThread = false) ∨
      (r.2 = false ∧ r.1.drv.counts = h.drv.counts ∧ h.drv.counts ≠ (0, 0))) := by
  have hstopped : (h.withDriver { h.drv with stopRequested := true }).Sound := hs.requested rfl rfl rfl
  have hserved := hstopped.served served
  have hpump : (run Driver.step { h.drv with stopRequested := true } served).counts = h.drv.counts :=
    Driver.counts_of_pump (d := { h.drv with stopRequested := true }) (Driver.run_pump served)
  dsimp only
  rcases stopIsoPump_cases h served with ⟨hin, he⟩ | ⟨hin, he⟩
  · rw [he]
    refine ⟨hserved.congr rfl rfl rfl, rfl, rfl, .inr ⟨rfl, hpump, fun hcounts => hin ?_⟩⟩
    have hout : h.drv.outCount = 0 := congrArg Prod.fst hcounts
    have hfeedback : h.drv.feedbackCount = 0 := congrArg Prod.snd hcounts
    have hholds := hstopped.holds
    rw [show (h.withDriver { h.drv with stopRequested := true }).drv.outCount = 0 from hout,
      show (h.withDriver { h.drv with stopRequested := true }).drv.feedbackCount = 0 from hfeedback] at hholds
    exact (hholds.run served).inflight_eq_zero
  · rw [he]
    have hfreed := hserved.holds.freeOut hin
    have hclosed (hno : h.device = false) : h.captureCount = 0 := (hs.closed hno).2
    exact ⟨⟨hfreed, fun _ _ => hfreed, fun hno => ⟨rfl, hclosed hno⟩, fun hno => (by cases hno), fun _ => rfl, hserved.count⟩,
      rfl, rfl, .inl ⟨rfl, rfl, rfl⟩⟩

/-- `stopCapturePump` frees the capture transfers only if none of them is owned. -/
theorem Sound.stopCapturePump (hs : h.Sound) (served : List DriverAct) :
    let r := h.stopCapturePump served
    r.1.Sound ∧ r.1.side = h.side ∧ r.1.drv.counts = h.drv.counts ∧ r.1.eventThread = h.eventThread ∧
    (r.2 = true → r.1.captureCount = 0) := by
  have hserved := hs.served served
  have hcounts := Driver.counts_of_pump (Driver.run_pump (d := h.drv) served)
  dsimp only
  rcases stopCapturePump_cases h served with ⟨-, he⟩ | ⟨hin, he⟩
  · rw [he]
    exact ⟨hserved.congr rfl rfl rfl, rfl, hcounts, rfl, fun hno => (by cases hno)⟩
  · rw [he]
    refine ⟨⟨hserved.holds.freeCapture hin, fun h₁ h₂ => (hserved.quiet h₁ h₂).freeCapture hin,
      fun hno => ⟨(hserved.closed hno).1, rfl⟩, hserved.thread, hserved.paired, hserved.count⟩, rfl, hcounts, rfl,
      fun _ => rfl⟩

/-- Both pumps: without an output left the event thread is joined, also if the capture half was deferred. -/
theorem Sound.stopPumps (hs : h.Sound) (a : Answers w) (out capture : Place) :
    let r := h.stopPumps a out capture
    r.1.Sound ∧ r.1.side = h.side ∧ (r.2 = true → r.1.Idle) ∧ (r.1.drv.counts = (0, 0) → r.1.eventThread = false) ∧
    (h.drv.counts = (0, 0) → r.1.drv.counts = (0, 0)) := by
  obtain ⟨hs₁, hside₁, -, hends₁⟩ := hs.stopIsoPump (a.others out h.drv)
  unfold Host.stopPumps
  dsimp only
  generalize h.stopIsoPump (a.others out h.drv) = r₁ at *
  obtain ⟨hs₂, hside₂, hcounts₂, hthread₂, hstopped₂⟩ := hs₁.stopCapturePump (a.others capture r₁.1.drv)
  generalize r₁.1.stopCapturePump (a.others capture r₁.1.drv) = r₂ at *
  refine ⟨hs₂, hside₂.trans hside₁, fun hstopped => ?_, fun hcounts => ?_, fun hcounts => ?_⟩
  · obtain ⟨hout, hcapture⟩ := (Bool.and_eq_true _ _).mp hstopped
    rcases hends₁ with ⟨-, hcounts₁, hthread₁⟩ | ⟨hno, -⟩
    · exact ⟨hs₂, hcounts₂.trans hcounts₁, hstopped₂ hcapture, hthread₂.trans hthread₁⟩
    · cases hno.symm.trans hout
  · rcases hends₁ with ⟨-, -, hthread₁⟩ | ⟨-, hsame, hne⟩
    · exact hthread₂.trans hthread₁
    · exact absurd (hsame.symm.trans (hcounts₂.symm.trans hcounts)) hne
  · rcases hends₁ with ⟨-, hcounts₁, -⟩ | ⟨-, -, hne⟩
    · exact hcounts₂.trans hcounts₁
    · exact absurd hcounts hne

/-! ### Releasing, opening, closing -/

theorem releaseStreaming_rest (h : Host w) : h.releaseStreaming.rest = h.rest := by
  unfold releaseStreaming
  split <;> rfl

theorem releaseControl_rest (h : Host w) : h.releaseControl.rest = h.rest := by
  unfold releaseControl
  split <;> rfl

theorem releaseCapture_rest (h : Host w) : h.releaseCapture.rest = h.rest := by
  unfold releaseCapture
  split <;> rfl

theorem dropCapture_rest (h : Host w) : h.dropCapture.rest = h.rest := by
  unfold dropCapture
  split <;> rfl

/-- Idle is a matter of the driver, the capture transfers and the event thread alone. -/
theorem Idle.congr (hi : h.Idle) (hrest : (h'.captureCount, h'.eventThread) = (h.captureCount, h.eventThread))
    (hrotation : h'.drv.rotation = { h.drv.rotation with captureActive := h'.drv.cap.captureActive })
    (hpump : h'.drv.pump = h.drv.pump) : h'.Idle := by
  obtain ⟨hcaptures, hthread⟩ := Prod.mk.injEq .. ▸ hrest
  exact .of (hi.nothing.congr hrotation) ((Driver.counts_of_pump hpump).trans hi.counts) (hcaptures.trans hi.captures)
    (hthread.trans hi.joined) (hi.count.of_pump hpump)

/-- Only the claims have changed. -/
theorem Idle.of_rest (hi : h.Idle) (hrest : h'.rest = h.rest) : h'.Idle := by
  have hdrv : h'.drv = h.drv := congrArg (·.1) hrest
  exact hi.congr (congrArg (·.2.2) hrest) (by rw [hdrv]; rfl) (by rw [hdrv])

theorem Idle.withDriver (hi : h.Idle) {d : Driver w}
    (hrotation : d.rotation = { h.drv.rotation with captureActive := d.cap.captureActive })
    (hpump : d.pump = h.drv.pump) : (h.withDriver d).Idle := hi.congr rfl hrotation hpump

/-- The ends of `stop`: there was nothing to stop, everything is stopped, or the teardown is deferred. -/
theorem Sound.stop_cases (hs : h.Sound) (a : Answers w) :
    let r := (h.withDriver h.drv.requestStop).stopPumps a .stopOut .stopCapture
    (h.nothingToStop = true ∧ h.stop a = h.withDriver h.drv.requestStop) ∨
    (h.nothingToStop = false ∧ r.2 = true ∧ (h.stop a).Idle) ∨ (h.nothingToStop = false ∧ r.2 = false ∧ h.stop a = r.1) := by
  have hrequested : (h.withDriver h.drv.requestStop).Sound := hs.requested rfl rfl rfl
  obtain ⟨-, -, hidle, -⟩ := hrequested.stopPumps a .stopOut .stopCapture
  unfold Host.stop
  dsimp only
  generalize (h.withDriver h.drv.requestStop).stopPumps a .stopOut .stopCapture = r at *
  cases hnothing : h.nothingToStop with
  | true => exact .inl ⟨rfl, if_pos rfl⟩
  | false =>
    rw [if_neg Bool.false_ne_true]
    cases hstopped : r.2 with
    | false =>
      rw [if_neg Bool.false_ne_true]
      exact .inr (.inr ⟨rfl, rfl, rfl⟩)
    | true =>
      rw [if_pos rfl]
      have hreleased : r.1.releaseStreaming.releaseControl.releaseCapture.Idle := (hidle hstopped).of_rest
        ((releaseCapture_rest _).trans ((releaseControl_rest _).trans (releaseStreaming_rest _)))
      have hreset : (r.1.releaseStreaming.releaseControl.releaseCapture.withDriver
          r.1.releaseStreaming.releaseControl.releaseCapture.drv.stopReset).Idle := hreleased.withDriver rfl rfl
      exact .inr (.inl ⟨rfl, rfl, hreset⟩)

theorem Sound.stop (hs : h.Sound) (a : Answers w) : (h.stop a).Sound := by
  have hrequested : (h.withDriver h.drv.requestStop).Sound := hs.requested rfl rfl rfl
  rcases hs.stop_cases a with ⟨-, he⟩ | ⟨-, -, hidle⟩ | ⟨-, -, he⟩
  · rw [he]
    exact hrequested
  · exact hidle.toSound
  · rw [he]
    exact (hrequested.stopPumps a .stopOut .stopCapture).1

/-- Nothing is live: nothing is allocated and nothing owned. -/
theorem not_live (hlive : h.transfersLive = false) :
    h.drv.counts = (0, 0) ∧ h.captureCount = 0 ∧ h.drv.inflight = 0 ∧ h.drv.captureInflight = 0 := by
  simp only [transfersLive, Bool.or_eq_false_iff, bne_eq_false_iff_eq] at hlive
  obtain ⟨⟨⟨⟨hout, hfeedback⟩, hcaptures⟩, hin⟩, hcapture⟩ := hlive
  exact ⟨Prod.ext hout hfeedback, hcaptures, hin, hcapture⟩

/-- Another transfer count for the pumps to come. -/
theorem Sound.resize (hs : h.Sound) {d : Driver w}
    (hrotation : d.rotation = { h.drv.rotation with captureActive := d.cap.captureActive })
    (hcounts : d.counts = h.drv.counts) (hstarted : d.pb.playbackStarted = h.drv.pb.playbackStarted)
    (hcount : d.CountInRange) : (h.withDriver d).Sound := by
  have hout : d.outCount = h.drv.outCount := congrArg Prod.fst hcounts
  have hfeedback : d.feedbackCount = h.drv.feedbackCount := congrArg Prod.snd hcounts
  have hstop : d.stopRequested = h.drv.stopRequested := congrArg Rotation.stopRequested hrotation
  refine ⟨?_, fun hquiet hrunning => ?_, fun hno => ?_, fun hthread => ?_, fun hno => ?_, hcount⟩
  · show d.Holds (Finset.range d.outCount) (Finset.range d.feedbackCount) _
    rw [hout, hfeedback]
    exact hs.holds.congr hrotation
  · exact (hs.quiet (hstarted.symm.trans hquiet) (hstop.symm.trans hrunning)).congr hrotation
  · exact ⟨hcounts.trans (hs.closed hno).1, (hs.closed hno).2⟩
  · exact (hs.thread hthread).imp_right fun hne => (hout ▸ hne)
  · exact hfeedback.trans (hs.paired (hout.symm.trans hno))

theorem Sound.closeDevice (hs : h.Sound) (hlive : h.transfersLive = false) : h.closeDevice.Sound := by
  obtain ⟨hcounts, hcaptures, -⟩ := not_live hlive
  exact ⟨hs.holds, hs.quiet, fun _ => ⟨hcounts, hcaptures⟩, hs.thread, hs.paired, hs.count⟩

theorem Sound.close (hs : h.Sound) (a : Answers w) : (h.close a).Sound := by
  have hstop := hs.stop a
  unfold Host.close
  dsimp only
  generalize h.stop a = r at *
  split
  · exact hstop
  rename_i hlive
  split
  · have hclosed := hstop.closeDevice (Bool.eq_false_iff.2 hlive)
    exact hclosed.congr rfl rfl rfl
  · exact hstop

theorem Sound.open_ (hs : h.Sound) (a : Answers w) (o : OpenAnswers) (fileDescriptor driverCode : Int) :
    (h.open_ a o fileDescriptor driverCode).1.Sound := by
  have hstop := hs.stop a
  unfold Host.open_
  dsimp only
  generalize h.stop a = r at *
  split
  · exact hs
  split
  · exact hstop.congr rfl rfl rfl
  rename_i hlive
  have hlive := Bool.eq_false_iff.2 hlive
  split
  · exact hstop
  have hclosed : (if r.device then r.closeDevice else r).Sound ∧
      (if r.device then r.closeDevice else r).transfersLive = false := by
    split
    · exact ⟨hstop.closeDevice hlive, hlive⟩
    · exact ⟨hstop, hlive⟩
  generalize (if r.device then r.closeDevice else r) = q at *
  obtain ⟨hq, hlive⟩ := hclosed
  have hopened (driverCode fd : Int) (line6Profile : Bool) :
      Sound { q with device := true, driverCode, line6Profile, fd } :=
    ⟨hq.holds, hq.quiet, fun hno => (by cases hno), hq.thread, hq.paired, hq.count⟩
  split
  · exact hq
  split
  · exact hq.closeDevice hlive
  split
  · exact (hopened driverCode fileDescriptor _).closeDevice hlive
  · have hq := hopened driverCode fileDescriptor (decide (driverCode = 1))
    have hdefault : 0 < kDefaultNumTransfers ∧ kDefaultNumTransfers ≤ kMaxTransferCount := by decide
    exact hq.resize rfl rfl rfl hdefault

/-! ### Starting -/

theorem Sound.reconfigure (hs : h.Sound) (a : Answers w) :
    (h.reconfigure a).1.Sound ∧ (h.reconfigure a).1.device = h.device ∧
    ((h.reconfigure a).2 = true → (h.reconfigure a).1.Idle) := by
  have hquiet : h.deactivateCapture.Sound := hs.congr rfl rfl rfl
  obtain ⟨hpumps, hside, hidle, -⟩ := hquiet.stopPumps a .reconfigureOut .reconfigureCapture
  have hdevice : (h.deactivateCapture.stopPumps a .reconfigureOut .reconfigureCapture).1.device = h.device :=
    congrArg (·.1) hside
  unfold Host.reconfigure
  dsimp only
  generalize h.deactivateCapture.stopPumps a .reconfigureOut .reconfigureCapture = r at *
  split
  · split
    · exact ⟨hpumps.err _, hdevice, fun hno => (by cases hno)⟩
    · rename_i hstopped
      have hdropped := (hidle (by simpa using hstopped)).of_rest (dropCapture_rest r.1)
      have hsame : r.1.dropCapture.device = r.1.device := congrArg (·.2.1) (dropCapture_rest r.1)
      have hreset : (r.1.dropCapture.withDriver r.1.drv.reconfigureReset).Idle := by
        rw [← dropCapture_drv (h := r.1)]
        exact hdropped.withDriver rfl rfl
      exact ⟨hreset.toSound, hsame.trans hdevice, fun _ => hreset⟩
  · rename_i hidle
    simp only [not_or, Bool.not_eq_true] at hidle
    obtain ⟨-, hlive, hthread, -⟩ := hidle
    obtain ⟨hcounts, hcaptures, -⟩ := not_live hlive
    exact ⟨hs, rfl, fun _ => ⟨hs, hcounts, hcaptures, hthread⟩⟩

theorem claimStreaming_rest (h : Host w) (a : Answers w) (fmt : StreamFormat) :
    (h.claimStreaming a fmt).1.rest = h.rest ∧
    ((h.claimStreaming a fmt).2 = true → (h.claimStreaming a fmt).1.interfaceClaimed = true) := by
  unfold claimStreaming
  split
  · dsimp only
    split_ifs <;> first | exact ⟨rfl, fun _ => rfl⟩ | exact ⟨rfl, fun hno => (by cases hno)⟩
  · rename_i hheld
    simp only [not_or, Bool.not_eq_true'] at hheld
    exact ⟨rfl, fun _ => by simpa using hheld.1⟩

theorem claimControl_rest (h : Host w) (a : Answers w) (fmt : StreamFormat) :
    (h.claimControl a fmt).rest = h.rest ∧ (h.claimControl a fmt).interfaceClaimed = h.interfaceClaimed := by
  unfold claimControl
  split
  · dsimp only
    split_ifs <;> exact ⟨rfl, rfl⟩
  · exact ⟨rfl, rfl⟩

/-- The session reset, with the streaming interface claimed: behind it nothing is owned, allocated or requested. -/
theorem Idle.startFormat (hi : h.Idle) (hopened : h.device = true) (a : Answers w) (fmt : StreamFormat) :
    (h.startFormat a fmt).1.Sound ∧
    ((h.startFormat a fmt).2 = true → (h.startFormat a fmt).1.Preparing ∧ (h.startFormat a fmt).1.drv.usb.owned = ∅) := by
  obtain ⟨hrest₁, hclaimed₁⟩ := claimStreaming_rest h a fmt
  unfold Host.startFormat
  dsimp only
  generalize h.claimStreaming a fmt = r₁ at *
  have hi₁ : r₁.1.Idle := hi.of_rest hrest₁
  obtain ⟨hrest₂, hkept⟩ := claimControl_rest r₁.1 a fmt
  have hi₂ : (r₁.1.claimControl a fmt).Idle := hi₁.of_rest hrest₂
  have hdevice : (r₁.1.claimControl a fmt).device = true :=
    (congrArg (·.2.1) (hrest₂.trans hrest₁)).trans hopened
  have hclaimed (hok : r₁.2 = true) : (r₁.1.claimControl a fmt).interfaceClaimed = true := hkept.trans (hclaimed₁ hok)
  generalize r₁.1.claimControl a fmt = q at *
  split
  · exact ⟨hi₁.toSound, fun hno => (by cases hno)⟩
  rename_i hok
  have hformat : (q.withDriver { q.drv with pb := { q.drv.pb with format := fmt } }).Idle := hi₂.withDriver rfl rfl
  split
  · exact ⟨hformat.toSound.err _, fun hno => (by cases hno)⟩
  split
  · exact ⟨hformat.toSound.err _, fun hno => (by cases hno)⟩
  · have howned : q.drv.usb.owned = ∅ := hi₂.nothing.owned_eq_empty
    have hreset : (q.drv.start fmt).Holds ∅ ∅ (Finset.range q.captureCount) :=
      Driver.Holds.reset (d := q.drv.start fmt) howned (Driver.Waited.pending_nil (d := q.drv) hi₂.nothing.ok)
        hi₂.nothing.inflight_eq_zero hi₂.nothing.captureInflight_eq_zero (fun hno => (by cases hno)) _
    have hstarted : (q.withDriver (q.drv.start fmt)).Preparing :=
      .of hreset hi₂.counts hdevice (hclaimed (by simpa using hok)) hi₂.count
    exact ⟨hstarted.toSound, fun _ => ⟨hstarted, howned⟩⟩

theorem Sound.start (hs : h.Sound) (a : Answers w) (req : StreamRequest) :
    (h.start a req).1.Sound ∧
    ((h.start a req).2 = true → (h.start a req).1.Preparing ∧ (h.start a req).1.drv.usb.owned = ∅) := by
  have hcleared : Sound { h with lastError := .ok } := hs.congr rfl rfl rfl
  have hrefused {q : Host w} (hq : q.Sound) (code : StartError) : (q.err code).1.Sound ∧
      ((q.err code).2 = true → (q.err code).1.Preparing ∧ (q.err code).1.drv.usb.owned = ∅) :=
    ⟨hq.err code, fun hno => (by cases hno)⟩
  obtain ⟨hs₁, hdevice, hidle⟩ := hcleared.reconfigure a
  unfold Host.start
  dsimp only
  split
  · exact hrefused hcleared _
  rename_i hopened
  split
  · exact hrefused hcleared _
  generalize Host.reconfigure { h with lastError := .ok } a = r at *
  split
  · exact ⟨hs₁, fun hno => (by cases hno)⟩
  rename_i hstopped
  split
  · exact hrefused hs₁ _
  · have hopen : r.1.device = true := hdevice.trans (by simpa using hopened)
    exact (hidle (by simpa using hstopped)).startFormat hopen a _

/-- The stages of a start keep the device and the claim. -/
theorem Preparing.next (hp : h.Preparing) (hs : h'.Sound) (hcounts : h'.drv.counts = h.drv.counts)
    (hside : h'.side = h.side) : h'.Preparing :=
  ⟨hs, hcounts.trans hp.counts, (congrArg (·.1) hside).trans hp.opened, (congrArg (·.2.2.1) hside).trans hp.claimed⟩

theorem Preparing.err (hp : h.Preparing) (code : StartError) : (h.err code).1.Preparing :=
  hp.next (hp.toSound.err code) rfl rfl

theorem Preparing.stopCapturePump (hp : h.Preparing) (served : List DriverAct) : (h.stopCapturePump served).1.Preparing := by
  obtain ⟨hs, hside, hcounts, -⟩ := hp.toSound.stopCapturePump served
  exact hp.next hs hcounts hside

theorem Preparing.allocateCaptures (hp : h.Preparing) (hfree : ∀ j, .capture j ∉ h.drv.usb.owned) (packets : Nat)
    (a : Answers w) : (h.allocateCaptures packets a).1.Preparing := by
  have hany (C : Finset Nat) : h.drv.Holds ∅ ∅ C :=
    ⟨hp.noOutput.ok, hp.noOutput.room, hp.noOutput.feedback, fun j hj => absurd hj (hfree j)⟩
  have hallocated (captureCount : Nat) : Preparing { h with captureCount } :=
    .of (hany _) hp.counts hp.opened hp.claimed hp.count
  have hle : ((List.range h.drv.geometry.transferCount).takeWhile a.captureAlloc).length ≤ h.drv.geometry.transferCount := by
    have hprefix : (List.range h.drv.geometry.transferCount).takeWhile a.captureAlloc <+: List.range h.drv.geometry.transferCount :=
      List.takeWhile_prefix a.captureAlloc
    simpa using hprefix.length_le
  unfold Host.allocateCaptures
  dsimp only
  generalize ((List.range h.drv.geometry.transferCount).takeWhile a.captureAlloc).length = allocated at *
  split
  · exact ((hallocated allocated).stopCapturePump _).err _
  rename_i hall
  have hactive : h.drv.activateCapture.Holds ∅ ∅ (Finset.range allocated) := (hany _).congr rfl
  obtain ⟨hholds, hpump⟩ := Driver.submitCaptures_holds (List.replicate packets a.mps.toNat) a
    (List.range h.drv.geometry.transferCount) List.nodup_range hactive
    (fun j hj => Finset.mem_range.2 ((List.mem_range.1 hj).trans_le (not_lt.1 hall))) fun j _ => hfree j
  generalize Driver.submitCaptures _ a _ h.drv.activateCapture = r at *
  have hkept : r.1.pump = h.drv.pump := hpump
  have hsubmitted : Preparing (Host.withDriver { h with captureCount := allocated } r.1) :=
    .of hholds ((Driver.counts_of_pump hkept).trans hp.counts) hp.opened hp.claimed (hp.count.of_pump hkept)
  split
  · exact hsubmitted
  · exact (hsubmitted.stopCapturePump _).err _

theorem Preparing.startCapturePump (hp : h.Preparing) (hfree : ∀ j, .capture j ∉ h.drv.usb.owned) (a : Answers w) :
    (h.startCapturePump a).1.Preparing := by
  have hstored {d : Driver w} (hrotation : d.rotation = { h.drv.rotation with captureActive := d.cap.captureActive })
      (hpump : d.pump = h.drv.pump) : (h.withDriver d).Preparing :=
    hp.next (hp.toSound.congr hrotation hpump rfl) (Driver.counts_of_pump hpump) rfl
  have hpackets (packets : Nat) : (h.withDriver (h.drv.withCapturePackets packets)).Preparing := hstored rfl rfl
  unfold Host.startCapturePump
  dsimp only
  split
  · exact hp.err _
  split
  · exact (hpackets _).err _
  · apply Preparing.allocateCaptures
    · exact hstored rfl rfl
    · exact hfree

theorem Preparing.startCapture (hp : h.Preparing) (howned : h.drv.usb.owned = ∅) (a : Answers w) :
    (h.startCapture a).1.Preparing := by
  unfold Host.startCapture
  split
  · exact hp.err _
  rename_i capture _
  split
  · exact hp.err _
  split
  · exact hp.err _
  have hclaimed : (h.claimCapture capture).Preparing := .of (hp.noOutput.congr rfl) hp.counts hp.opened hp.claimed hp.count
  have hreset : ((h.claimCapture capture).resetCapture capture).Preparing :=
    .of (hp.noOutput.congr rfl) hp.counts hp.opened hp.claimed hp.count
  split
  · exact hclaimed.err _
  · refine hreset.startCapturePump (fun j hj => ?_) a
    exact Finset.notMem_empty _ (howned ▸ hj)

theorem Preparing.primeLayout (hp : h.Preparing) (a : Answers w) : (h.primeLayout a).1.Preparing := by
  let acts := .registerCapture :: a.others .priming (h.drv.step .registerCapture) ++ [.unregisterCapture]
  have hserved : (run Driver.step h.drv acts).Holds ∅ ∅ (Finset.range h.captureCount) := hp.noOutput.run acts
  have hpump := Driver.run_pump (d := h.drv) acts
  rw [run_append] at hserved hpump
  have hprimed : Preparing { h with eventThread := true, drv := (run Driver.step (h.drv.step .registerCapture)
      (a.others .priming (h.drv.step .registerCapture))).step .unregisterCapture } :=
    .of hserved ((Driver.counts_of_pump hpump).trans hp.counts) hp.opened hp.claimed (hp.count.of_pump hpump)
  unfold Host.primeLayout
  dsimp only
  split
  · exact hprimed.err _
  · exact hprimed

/-- The OUT and feedback transfers are allocated, or what was allocated is freed again before anything is submitted. -/
theorem Preparing.startIsoPump (hp : h.Preparing) (a : Answers w) :
    (h.startIsoPump a).1.Sound ∧ ((h.startIsoPump a).2 = false → (h.startIsoPump a).1.Preparing) := by
  have hnothing : h.drv.rotation = { h.drv.rotation with pending := [] } := by
    rw [Driver.rotation, Driver.Waited.pending_nil hp.noOutput.ok]
  unfold Host.startIsoPump
  split
  · rename_i d hd
    unfold Driver.startIsoPump at hd
    dsimp only at hd
    obtain ⟨-, hplan⟩ := Option.ite_none_left_eq_some.1 hd
    obtain ⟨⟨plan, fifo⟩, -, rfl⟩ := Option.map_eq_some_iff.1 hplan
    refine ⟨⟨?_, fun _ _ => ?_, fun hno => ?_, fun _ => .inl hp.claimed, fun hno => ?_, hp.count⟩, fun hno => (by cases hno)⟩
    · refine (hp.noOutput.congr hnothing.symm).mono (Finset.empty_subset _) ?_ (Finset.empty_subset _) subset_rfl
      rw [Finset.card_range]
      exact hp.count.2
    · exact hp.noOutput.congr hnothing.symm
    · cases hno.symm.trans hp.opened
    · exact absurd hno (Nat.ne_of_gt hp.count.1)
  · have habandoned : (h.drv.abandonIsoPump a.maxPacket a.alloc a.allocated).Holds ∅ ∅ (Finset.range h.captureCount) ∧
        (h.drv.abandonIsoPump a.maxPacket a.alloc a.allocated).counts = (0, 0) ∧
        (h.drv.abandonIsoPump a.maxPacket a.alloc a.allocated).CountInRange := by
      have hkept : ({ h.drv with pending := [] } : Driver w).Holds ∅ ∅ (Finset.range h.captureCount) :=
        hp.noOutput.congr hnothing.symm
      rcases h.drv.abandonIsoPump_cases a.maxPacket a.alloc a.allocated with ⟨_, _, he, hcount⟩ | ⟨_, _, _, _, _, he, hcount⟩
      · rw [he]
        refine ⟨hkept.congr rfl, hp.counts, ?_⟩
        rw [Driver.CountInRange, hcount]
        exact hp.count
      · rw [he]
        refine ⟨hkept.requested rfl, rfl, ?_⟩
        rw [Driver.CountInRange, hcount]
        exact hp.count
    obtain ⟨hholds, hcounts, hcount⟩ := habandoned
    generalize h.drv.abandonIsoPump a.maxPacket a.alloc a.allocated = d at *
    have hfailed (eventThread : Bool) (microframesPerSec : Nat) (lastError : StartError) :
        Preparing { h with drv := d, eventThread, microframesPerSec, lastError } :=
      .of hholds hcounts hp.opened hp.claimed hcount
    exact ⟨(hfailed _ _ _).toSound, fun _ => hfailed _ _ _⟩

theorem Sound.streamingOn (hs : h.Sound) : h.streamingOn.1.Sound := hs.congr rfl rfl rfl

theorem Preparing.startPumps (hp : h.Preparing) (howned : h.drv.usb.owned = ∅) (a : Answers w) :
    (h.startPumps a).1.Sound := by
  have h₁ := hp.startCapture howned a
  unfold Host.startPumps
  dsimp only
  generalize h.startCapture a = r₁ at *
  split
  · exact h₁.toSound.stop a
  have h₂ : (if r₁.1.drv.implicitMode then r₁.1.primeLayout a else (r₁.1, true)).1.Preparing := by
    split
    · exact h₁.primeLayout a
    · exact h₁
  generalize (if r₁.1.drv.implicitMode then r₁.1.primeLayout a else (r₁.1, true)) = r₂ at *
  split
  · exact h₂.toSound.stop a
  obtain ⟨h₃, -⟩ := h₂.startIsoPump a
  generalize r₂.1.startIsoPump a = r₃ at *
  split
  · exact h₃.stop a
  · exact h₃.streamingOn

/-! ### The Line6 path -/

/-- `fail` of the Line6 path: no output is there yet, so that the event thread is always joined before the claim is given
up. -/
theorem Sound.line6Fail (hs : h.Sound) (hcounts : h.drv.counts = (0, 0)) (a : Answers w) (code : StartError) :
    (h.line6Fail a code).1.Sound := by
  have hquiet : Sound { h.deactivateCapture with lastError := code } := hs.congr rfl rfl rfl
  obtain ⟨hpumps, -, -, hjoined, hnone⟩ := hquiet.stopPumps a .stopOut .stopCapture
  have hthread := hjoined (hnone hcounts)
  unfold Host.line6Fail
  dsimp only
  generalize Host.stopPumps { h.deactivateCapture with lastError := code } a .stopOut .stopCapture = r at *
  have hrest := releaseStreaming_rest r.1
  generalize r.1.releaseStreaming = q at *
  simp only [rest, Prod.mk.injEq] at hrest
  obtain ⟨hdrv, hdevice, hcaptures, hevent⟩ := hrest
  have hidle : q.eventThread = false := hevent.trans hthread
  have hreleased : q.Sound := by
    refine ⟨?_, ?_, ?_, fun hno => ?_, ?_, ?_⟩
    · rw [hdrv, hcaptures]
      exact hpumps.holds
    · rw [hdrv, hcaptures]
      exact hpumps.quiet
    · rw [hdrv, hdevice, hcaptures]
      exact hpumps.closed
    · cases hidle.symm.trans hno
    · rw [hdrv]
      exact hpumps.paired
    · rw [hdrv]
      exact hpumps.count
  exact hreleased.congr rfl rfl rfl

theorem Idle.line6Pumps (hi : h.Idle) (hopened : h.device = true) (hclaimed : h.interfaceClaimed = true) (a : Answers w)
    (playback capture : StreamFormat) : (h.line6Pumps a playback capture).1.Sound := by
  have hfail {q : Host w} (hq : q.Preparing) (code : StartError) : (q.line6Fail a code).1.Sound :=
    hq.toSound.line6Fail hq.counts a code
  have howned : h.drv.usb.owned = ∅ := hi.nothing.owned_eq_empty
  have hreset : (h.drv.line6Reset playback capture).Holds ∅ ∅ (Finset.range h.captureCount) :=
    Driver.Holds.reset (d := h.drv.line6Reset playback capture) howned rfl rfl rfl (fun hno => (by cases hno)) _
  have h₁ : (h.withDriver (h.drv.line6Reset playback capture)).Preparing :=
    .of hreset hi.counts hopened hclaimed hi.count
  unfold Host.line6Pumps
  dsimp only
  split
  · exact hfail h₁ _
  split
  · exact hfail h₁ _
  have hthread : Preparing { h.withDriver (h.drv.line6Reset playback capture) with eventThread := true } :=
    .of hreset hi.counts hopened hclaimed hi.count
  have h₂ := hthread.startCapturePump (fun j hj => Finset.notMem_empty _ (howned ▸ hj)) a
  generalize Host.startCapturePump { h.withDriver (h.drv.line6Reset playback capture) with eventThread := true } a = r₂ at *
  split
  · exact hfail h₂ _
  have h₃ := h₂.primeLayout a
  generalize r₂.1.primeLayout a = r₃ at *
  split
  · exact hfail h₃ _
  obtain ⟨h₄, hfailed⟩ := h₃.startIsoPump a
  generalize r₃.1.startIsoPump a = r₄ at *
  split
  · rename_i hno
    exact hfail (hfailed (by simpa using hno)) _
  · exact h₄.streamingOn

theorem Sound.line6StartDuplex (hs : h.Sound) (a : Answers w) : (h.line6StartDuplex a).1.Sound := by
  unfold Host.line6StartDuplex
  split
  · exact hs.err _
  rename_i hfree
  simp only [not_or, ne_eq, not_not, Bool.not_eq_true] at hfree
  obtain ⟨-, -, hout, hcaptures, hthread, -, -⟩ := hfree
  have hi : h.Idle := ⟨hs, Prod.ext hout (hs.paired hout), hcaptures, hthread⟩
  split
  · exact hs.line6Fail hi.counts a _
  rename_i playback capture hselect
  have hopened : h.device = true := by
    by_contra hno
    rw [if_neg hno] at hselect
    cases hselect
  split
  · rename_i hclaimed
    exact hi.line6Pumps hopened hclaimed a playback capture
  split
  · exact hs.line6Fail hi.counts a _
  · have hheld : (h.holdStreaming playback.interfaceNumber).Idle := hi.of_rest rfl
    exact hheld.line6Pumps hopened rfl a playback capture

theorem Sound.startDuplex (hs : h.Sound) (a : Answers w) (req : StreamRequest) : (h.startDuplex a req).1.Sound := by
  unfold Host.startDuplex
  split
  · split
    · exact hs.line6StartDuplex a
    · exact hs.err _
  obtain ⟨hstarted, hprepared⟩ := hs.start a req
  dsimp only
  generalize h.start a req = r at *
  split
  · exact hstarted
  · rename_i hok
    obtain ⟨hp, howned⟩ := hprepared (by simpa using hok)
    exact hp.startPumps howned a

/-! ### The start of playback -/

theorem stopIsoPump_requested (h : Host w) (served : List DriverAct) :
    (h.stopIsoPump served).1.drv.stopRequested = true := by
  have hrequested := Driver.stopRequested_run (d := { h.drv with stopRequested := true }) rfl served
  rcases stopIsoPump_cases h served with ⟨-, he⟩ | ⟨-, he⟩ <;>
  · rw [he]
    exact hrequested

/-- The output has been submitted, wholly or in part. -/
theorem Sound.submitted (hs : h.Sound) {d : Driver w}
    (hholds : d.Holds (Finset.range h.drv.outCount) (Finset.range h.drv.feedbackCount) (Finset.range h.captureCount))
    (hcounts : d.counts = h.drv.counts) (hcount : d.CountInRange) (hstarted : d.pb.playbackStarted = true) :
    (h.withDriver d).Sound := by
  have hout : d.outCount = h.drv.outCount := congrArg Prod.fst hcounts
  have hfeedback : d.feedbackCount = h.drv.feedbackCount := congrArg Prod.snd hcounts
  refine ⟨?_, fun hno => ?_, fun hno => ?_, fun hthread => ?_, fun hno => ?_, hcount⟩
  · show d.Holds (Finset.range d.outCount) (Finset.range d.feedbackCount) _
    rw [hout, hfeedback]
    exact hholds
  · cases hstarted.symm.trans hno
  · exact ⟨hcounts.trans (hs.closed hno).1, (hs.closed hno).2⟩
  · exact (hs.thread hthread).imp_right fun hne => hout ▸ hne
  · exact hfeedback.trans (hs.paired (hout.symm.trans hno))

/-- Behind a stop playback may count as not started although transfers are still out. -/
theorem Sound.setStarted (hs : h.Sound) (hstop : h.drv.stopRequested = true) (playbackStarted : Bool) :
    (h.setStarted playbackStarted).Sound :=
  ⟨hs.holds.congr rfl, fun _ hno => (by cases hstop.symm.trans hno), hs.closed, hs.thread, hs.paired, hs.count⟩

theorem Sound.startPlayback (hs : h.Sound) (a : PlaybackAnswers w) : (h.startPlayback a).1.Sound := by
  unfold Host.startPlayback
  split
  · exact hs
  rename_i hfresh
  have hfresh : h.drv.pb.playbackStarted = false := by simpa using hfresh
  have hback (lastError : StartError) : (Host.setStarted { h.setStarted true with lastError } false).Sound := by
    refine hs.congr rfl ?_ rfl
    simp only [Driver.pump, Host.setStarted, withDriver, hfresh]
  unfold Host.submitIsoPump
  dsimp only
  split
  · exact hback h.lastError
  rename_i hrunning
  have hrunning : h.drv.stopRequested = false := Bool.eq_false_iff.2 hrunning
  split
  · exact hback .isoPumpSubmitFailed
  -- nothing of the output is out before the first submit
  have hquiet : (h.setStarted true).drv.Holds ∅ ∅ (Finset.range h.captureCount) := (hs.quiet hfresh hrunning).of_rotation rfl
  obtain ⟨hholds, hpump⟩ := Driver.submitFilled_holds a hquiet hs.holds.room
  have hstored : (h.setStarted true).drv.CountInRange := hs.count
  generalize Driver.submitInitial a (h.setStarted true).drv.initialXfers _ = r at *
  have hcounts : r.1.counts = h.drv.counts := Driver.counts_of_pump (d := (h.setStarted true).drv) hpump
  have hcount : r.1.CountInRange := hstored.of_pump hpump
  have hout : (h.withDriver r.1).Sound := hs.submitted hholds hcounts hcount (congrArg (·.2.2.2) hpump)
  split
  · have hplaying : (h.withDriver { r.1 with pb := { r.1.pb with playbackStarted := true }, streaming := true }).Sound :=
      hs.submitted (hholds.of_rotation rfl) hcounts hcount rfl
    exact hplaying
  · have hrefused : Sound { h.setStarted true with drv := r.1, lastError := .isoPumpSubmitFailed } := hout.congr rfl rfl rfl
    exact (hrefused.stopIsoPump (a.served r.1)).1.setStarted (stopIsoPump_requested _ _) false

/-! ### The start of playback that nothing disturbs -/

theorem submitInitial_eq {a : PlaybackAnswers w} (ha : a.before = fun _ _ => []) {xs : List Xfer} {d d' : Driver w}
    {bytes : Nat} (hbytes : d.feedbackBytes = bytes)
    (he : xs.foldlM (fun d' x => Driver.submitFirst d' a.submit (fun _ => [bytes]) x) d = some d') :
    Driver.submitInitial a xs d = (d', true) := by
  induction xs generalizing d with
  | nil =>
    cases he
    rfl
  | cons x xs ih =>
    rw [List.foldlM_cons, Option.bind_eq_bind, Option.bind_eq_some_iff] at he
    obtain ⟨d₁, hfirst, hrest⟩ := he
    have hstep : d.submitFirst a.submit (fun _ => [d.feedbackBytes]) x = some d₁ := by
      rw [hbytes]
      exact hfirst
    have hformat : d₁.feedbackBytes = bytes := by
      rw [← hbytes]
      unfold Driver.submitFirst at hfirst
      split at hfirst
      · cases x <;> cases hfirst <;> rfl
      · cases hfirst
    rw [Driver.submitInitial, ha]
    simp only [run_nil, hstep]
    exact ih hformat hrest

theorem submitIsoPump_eq {a : PlaybackAnswers w} (ha : a.before = fun _ _ => []) {d : Driver w}
    (hd : h.drv.submitIsoPump a.submit = some d) : h.submitIsoPump a = (h.withDriver d, true) := by
  have hformat (is : List Nat) (d : Driver w) : (is.foldl Driver.primeOut d).pb.format = d.pb.format := by
    induction is generalizing d with
    | nil => rfl
    | cons i is ih => exact (ih _).trans (congrArg Prod.fst (Playback.primeTransfer_eventSide ..))
  unfold Driver.submitIsoPump at hd
  obtain ⟨hrunning, hd⟩ := Option.ite_none_left_eq_some.1 hd
  obtain ⟨hprime, hd⟩ := Option.ite_none_left_eq_some.1 hd
  obtain ⟨d', hsubmitted, rfl⟩ := Option.map_eq_some_iff.1 hd
  have hall := submitInitial_eq ha (by rw [Driver.feedbackBytes, hformat]; rfl) hsubmitted
  unfold Host.submitIsoPump
  rw [if_neg hrunning, if_neg hprime]
  simp only [hall, if_true]

/-- With every submit accepted and nobody running in between this is the start of playback of the driver. -/
theorem startPlayback_eq {a : PlaybackAnswers w} (ha : a.before = fun _ _ => []) {d : Driver w}
    (hd : h.drv.startPlayback a.submit = some d) : h.startPlayback a = (h.withDriver d, true) := by
  unfold Driver.startPlayback at hd
  obtain ⟨hfresh, hd⟩ := Option.ite_none_left_eq_some.1 hd
  have hsubmitted := submitIsoPump_eq (h := h.setStarted true) ha hd
  unfold Host.startPlayback
  rw [if_neg hfresh]
  simp only [hsubmitted, if_true]
  rfl

/-! ### Whole lives -/

end Host

/-- The calls of the control thread with the start of playback, and everything between them. -/
inductive LifecycleAct (w : Nat) where
  | call (act : HostAct w)
  | startPlayback (a : PlaybackAnswers w)

namespace Host

variable {w : Nat} {h : Host w}

def live (h : Host w) : LifecycleAct w → Host w
  | .call act => h.step act
  | .startPlayback a => (h.startPlayback a).1

theorem Sound.configureUserspaceBuffers (hs : h.Sound) (c : UserspaceBufferConfig) :
    (h.configureUserspaceBuffers c).1.Sound := by
  unfold Host.configureUserspaceBuffers
  split
  · rename_i d hd
    obtain ⟨pb, hpb, rfl⟩ := Option.map_eq_some_iff.1 hd
    unfold Playback.configureUserspaceBuffers at hpb
    split at hpb
    · cases hpb
    split at hpb
    · cases hpb
    rename_i haccepted
    have haccepted : c.accepted = true := by simpa using haccepted
    obtain ⟨z, -, rfl⟩ := Option.map_eq_some_iff.1 hpb
    exact hs.resize rfl rfl rfl ⟨(UserspaceBufferConfig.accepted_counts haccepted).1, c.resolvedTransferCount_le haccepted⟩
  · exact hs

theorem Sound.setUserspaceBufferConfig (hs : h.Sound) (frames : Int) (c : UserspaceBufferConfig) (periodMultiplier : Int) :
    (h.setUserspaceBufferConfig frames c periodMultiplier).Sound := by
  have hsame : (h.setUserspaceBufferConfig frames c periodMultiplier).drv.rotation = h.drv.rotation ∧
      (h.setUserspaceBufferConfig frames c periodMultiplier).drv.pump = h.drv.pump := by
    unfold Host.setUserspaceBufferConfig Startup.setUserspaceBufferConfig
    split <;> exact ⟨rfl, rfl⟩
  obtain ⟨hrotation, hpump⟩ := hsame
  have hactive : (h.setUserspaceBufferConfig frames c periodMultiplier).drv.cap.captureActive = h.drv.cap.captureActive :=
    congrArg Rotation.captureActive hrotation
  refine hs.congr ?_ hpump rfl
  rw [hrotation, hactive]
  rfl

theorem Sound.live (hs : h.Sound) (act : LifecycleAct w) : (h.live act).Sound := by
  cases act with
  | startPlayback a => exact hs.startPlayback a
  | call act =>
    cases act with
    | open_ a o fileDescriptor driverCode => exact hs.open_ a o fileDescriptor driverCode
    | close a => exact hs.close a
    | configureUserspaceBuffers c => exact hs.configureUserspaceBuffers c
    | setUserspaceBufferConfig frames c periodMultiplier => exact hs.setUserspaceBufferConfig frames c periodMultiplier
    | startDuplex a req => exact hs.startDuplex a req
    | stop a => exact hs.stop a
    | driver a => exact hs.served [a]

theorem constructed_sound (z : RingSize w) : (constructed z).Sound := by
  have hnothing : (constructed z).drv.Holds ∅ ∅ ∅ :=
    Driver.Holds.reset (d := (constructed z).drv) rfl rfl rfl rfl (fun hno => (by cases hno)) _
  have hdefault : 0 < kDefaultNumTransfers ∧ kDefaultNumTransfers ≤ kMaxTransferCount := by decide
  have hi : (constructed z).Idle := .of hnothing rfl rfl rfl hdefault
  exact hi.toSound

theorem run_sound (z : RingSize w) (as : List (LifecycleAct w)) : (run live (constructed z) as).Sound :=
  run_invariant (I := Sound) (fun _ act hs => hs.live act) (constructed_sound z) as

/-- The transfer and its buffer are allocated. -/
def Allocated (h : Host w) : Xfer → Prop
  | .out i => i < h.drv.outCount
  | .feedback k => k < h.drv.feedbackCount
  | .capture j => j < h.captureCount

theorem Sound.allocated (hs : h.Sound) : ∀ x ∈ h.drv.usb.owned, h.Allocated x := by
  intro x hx
  cases x with
  | out i => exact Finset.mem_range.1 (hs.holds.ok.owned_mem i hx)
  | feedback k => exact Finset.mem_range.1 (hs.holds.feedback k hx)
  | capture j => exact Finset.mem_range.1 (hs.holds.capture j hx)

/-- Over every life of the driver (opened, configured, started, played, stopped and closed in any order, whatever libusb
answers, whichever callbacks and client calls run between the calls and, each to its end, at the places of `Place` during
one, and whether or not cancelled transfers retire in time): every transfer that libusb owns is allocated, both counters
count what it owns, it owns nothing of a closed device, and the transfers that a reconfiguration frees before it allocates
new ones are not owned either. -/
theorem owned_allocated (z : RingSize w) (as : List (LifecycleAct w)) :
    let h := run live (constructed z) as
    (∀ x ∈ h.drv.usb.owned, h.Allocated x) ∧
    h.drv.inflight = (h.drv.usb.owned.filter fun x => x.isPlayback).card ∧
    h.drv.captureInflight = (h.drv.usb.owned.filter fun x => !x.isPlayback).card ∧
    (h.device = false → h.drv.usb.owned = ∅) ∧
    ∀ a : Answers w, ∀ x ∈ (h.reconfigure a).1.drv.usb.owned, (h.reconfigure a).1.Allocated x := by
  intro h
  have hs : h.Sound := run_sound z as
  refine ⟨hs.allocated, hs.holds.ok.inflight, hs.holds.ok.captureInflight, fun hclosed => ?_, fun a => ?_⟩
  · obtain ⟨hcounts, hcaptures⟩ := hs.closed hclosed
    exact (hs.nothing hcounts hcaptures).owned_eq_empty
  · exact (hs.reconfigure a).1.allocated

/-! ### The destructor -/

theorem Idle.not_live (hi : h.Idle) : h.transfersLive = false := by
  have hout : h.drv.outCount = 0 := congrArg Prod.fst hi.counts
  have hfeedback : h.drv.feedbackCount = 0 := congrArg Prod.snd hi.counts
  simp [transfersLive, hout, hfeedback, hi.captures, hi.nothing.inflight_eq_zero, hi.nothing.captureInflight_eq_zero]

/-- A stereo device with a capture interface. -/
def duplexStereo : Answers 64 where
  config := some uac1Stereo
  isHs := false
  selectCaptureAltSetting := fun playback => some { playback with interfaceNumber := 2 }
  mps := 192
  maxPacket := 200

/-- Four OUT and four capture transfers out. -/
def played : List (LifecycleAct 64) :=
  [.call (.open_ {} {} 5 0), .call (.startDuplex duplexStereo ⟨48000, 16, 2, 2⟩), .call (.driver (.writePcm [] 192)),
    .startPlayback {}]

end Host

end UacDriver

import UacDriver.Cadence
import Mathlib.Algebra.BigOperators.Ring.List

/-!
# The packet plan of a session

The planned lengths of the OUT packets, from the descriptors that `startIsoPump` primes to every later completion. A
completion that is refilled from the scheduler plans one packet after the other; `log` lists these plans over a run.
What a run can do to the pacing is said once (`step_pacing`, `step_feedback_pacing`), and the two streams, nominal and
paced by feedback, are then inductions over the run.
-/

namespace UacDriver

open Runs Carry

namespace Driver

variable {w : Nat} {d d' : Driver w}

/-! ### What a completion plans -/

/-- The packets that an act plans from the scheduler: those of an OUT transfer that is refilled outside implicit
feedback. -/
def plansPackets (d : Driver w) : DriverAct → Nat
  | .outDone i status results _ =>
    if .out i ∈ d.usb.owned ∧ (d.deliverOut i status results).keeps i = true ∧ d.implicitMode = false then
      (d.transfers i).numIsoPackets
    else 0
  | _ => 0

/-- The frame counts an act plans, before a packet is shortened to what the ring holds. -/
def planned (d : Driver w) (a : DriverAct) : List Nat :=
  (d.pacing.planPackets d.pb.format.feedbackEndpointAddress (d.plansPackets a)).1

/-- The same counts before the fallback and the clamp. -/
def scheduled (d : Driver w) (a : DriverAct) : List Nat :=
  d.pacing.scheduledPackets d.pb.format.feedbackEndpointAddress (d.plansPackets a)

/-- The feedback rate each of these packets is planned with. -/
def ratesUsed (d : Driver w) (a : DriverAct) : List Nat :=
  List.replicate (d.plansPackets a) d.pacing.framesPerUframe_q16.toNat

theorem creditOut_format (i : Nat) : ((d.completeOut i).creditOut i).pb.format = d.pb.format := by
  simp only [creditOut]; split <;> rfl

/-- The plan of an act is the one its refill is made from. -/
theorem step_refills {i : Nat} {status : TransferStatus} {results : List TransferStatus} (ok : Xfer → Bool)
    (hi : .out i ∈ d.usb.owned) (hk : (d.deliverOut i status results).keeps i = true) (hm : d.implicitMode = false) :
    let d₁ := ((d.deliverOut i status results).completeOut i).creditOut i
    d.step (.outDone i status results ok) = (d₁.refillScheduled i).resubmitOut i false (ok (.out i)) ∧
      (d₁.pacing.planPackets d₁.pb.format.feedbackEndpointAddress (d₁.transfers i).numIsoPackets).1 =
        d.planned (.outDone i status results ok) := by
  intro d₁
  constructor
  · simp only [step, if_pos hi]
    have hm' : (d.deliverOut i status results).implicitMode = false := hm
    refine onIso_rule (P := fun d' => d' = (d₁.refillScheduled i).resubmitOut i false (ok (.out i))) ?_ ?_ ?_ ?_
      (fun _ _ => rfl)
    · intro hr
      simp [keeps, hr] at hk
    · intro _ hn
      simp [keeps, hn] at hk
    · intro _ hmode
      rw [hm'] at hmode
      cases hmode
    · intro _ hmode
      rw [hm'] at hmode
      cases hmode
  · have hn : (d₁.transfers i).numIsoPackets = (d.transfers i).numIsoPackets := by
      have : d₁.transfers i = (d.transfers i).completeWith status results := Function.update_self ..
      rw [this]
      simp [Transfer.numIsoPackets, Transfer.completeWith]
    have hp : d.plansPackets (.outDone i status results ok) = (d.transfers i).numIsoPackets := if_pos ⟨hi, hk, hm⟩
    rw [planned, hp, hn]
    exact congrArg (fun f : StreamFormat => (d.pacing.planPackets f.feedbackEndpointAddress _).1) (creditOut_format i)

/-! ### What a step does to the pacing -/

theorem onIso_pacing (i : Nat) (ok : Xfer → Bool) :
    (d.onIso i ok).pacing = (d.pacing.planPackets d.pb.format.feedbackEndpointAddress
      (if d.keeps i = true ∧ d.implicitMode = false then (d.transfers i).numIsoPackets else 0)).2 := by
  refine onIso_rule (P := fun d' => d'.pacing = _) ?_ ?_ ?_ ?_ ?_
  · intro hr
    have hk : d.keeps i = false := by simp [keeps, hr]
    rw [hk, if_neg (by simp)]
    rfl
  · intro _ hn
    have hk : d.keeps i = false := by simp [keeps, hn]
    rw [hk, if_neg (by simp)]
    rfl
  · intro _ hm _ stats
    rw [hm, if_neg (by simp)]
    unfold deferTransfer
    split <;> rfl
  · intro _ hm _ _
    rw [hm, if_neg (by simp)]
    unfold resubmitOut
    cases ok (.out i) <;> rfl
  · intro hk hm
    have hplan : (((d.completeOut i).creditOut i).refillScheduled i).pacing =
        (d.pacing.planPackets d.pb.format.feedbackEndpointAddress (d.transfers i).numIsoPackets).2 :=
      congrArg (fun f : StreamFormat => (d.pacing.planPackets f.feedbackEndpointAddress _).2) (creditOut_format i)
    rw [if_pos ⟨hk, hm⟩, ← hplan]
    unfold resubmitOut
    cases ok (.out i) <;> rfl

theorem submitPendingImplicitTransfers_pacing (ok : Xfer → Bool) :
    (d.submitPendingImplicitTransfers ok).pacing = d.pacing :=
  submitPending_rule ok (P := fun d' _ => d'.pacing = d.pacing) (Q := fun d' _ => d'.pacing = d.pacing)
    (fun _ h => h) (fun _ _ _ _ h _ => h) (fun _ _ _ h _ _ => h) (fun _ _ _ h _ _ => h) d d.pending rfl

theorem onCapture_pacing (j : Nat) (x : Transfer) (ok : Xfer → Bool) : (d.onCapture j x ok).pacing = d.pacing := by
  have hrel : ((d.receiveCapture x).submitPendingImplicitTransfers ok).pacing = d.pacing :=
    submitPendingImplicitTransfers_pacing ok
  refine onCapture_rule (P := fun d' => d'.pacing = d.pacing) (fun _ => rfl) (fun _ => rfl) (fun _ => ?_)
    (fun _ _ => ?_) (fun _ _ => ?_)
  all_goals
    generalize (d.receiveCapture x).submitPendingImplicitTransfers ok = e at *
    exact hrel

/-- Apart from feedback, the pacing moves by what an act plans. -/
theorem step_pacing {a : DriverAct} (ha : ∀ k x ok, a ≠ .feedbackDone k x ok) :
    (d.step a).pacing = (d.pacing.planPackets d.pb.format.feedbackEndpointAddress (d.plansPackets a)).2 := by
  cases a with
  | outDone i status results ok =>
    simp only [step, plansPackets]
    by_cases hi : .out i ∈ d.usb.owned
    · rw [if_pos hi, onIso_pacing]
      have hn : ((d.deliverOut i status results).transfers i).numIsoPackets = (d.transfers i).numIsoPackets := by
        have : (d.deliverOut i status results).transfers i = (d.transfers i).completeWith status results :=
          Function.update_self ..
        rw [this]
        simp [Transfer.numIsoPackets, Transfer.completeWith]
      have hmode : (d.deliverOut i status results).implicitMode = d.implicitMode := rfl
      simp only [hi, true_and, hn, hmode]
      rfl
    · rw [if_neg hi, if_neg (fun h => hi h.1)]
      rfl
  | feedbackDone k x ok => exact absurd rfl (ha k x ok)
  | captureDone j x ok =>
    simp only [step]
    split
    · exact onCapture_pacing (d := d.release (.capture j)) j x ok
    · rfl
  | _ => rfl

/-- The rate that a feedback packet asks for, in frames a packet. -/
def packetRateQ16 (d : Driver w) (x : Transfer) (p : IsoPacket) : Nat :=
  (feedbackRate x.buffer p.actualLength).toNat * d.geometry.packetIntervalUframes

/-- The pacing after a feedback completion: unchanged, or with a rate that fits a packet. -/
def FeedbackPaced (d : Driver w) (k : Nat) (x : Transfer) (pacing : Pacing) : Prop :=
  pacing = d.pacing ∨
    .feedback k ∈ d.usb.owned ∧ ∃ p ∈ x.packets.head?, d.packetRateQ16 x p ≤ d.pacing.maxFramesPerPacket * 2 ^ 16 ∧
      pacing = { d.pacing with framesPerUframe_q16 := UInt32.ofNat (d.packetRateQ16 x p) }

theorem noteFeedback_pacing {k : Nat} (hk : .feedback k ∈ d.usb.owned) (x : Transfer) :
    d.FeedbackPaced k x ((d.release (.feedback k)).noteFeedback x).pacing := by
  unfold noteFeedback acceptFeedback
  split
  · rename_i p _ hpackets
    split
    · dsimp only
      split
      · rename_i h
        exact .inr ⟨hk, p, by rw [hpackets]; rfl, h.2, rfl⟩
      · exact .inl rfl
    · exact .inl rfl
  · exact .inl rfl

theorem step_feedback_pacing (k : Nat) (x : Transfer) (ok : Xfer → Bool) :
    d.FeedbackPaced k x (d.step (.feedbackDone k x ok)).pacing := by
  simp only [step]
  by_cases hk : .feedback k ∈ d.usb.owned
  · rw [if_pos hk]
    exact onFeedback_rule (d := d.release (.feedback k)) (P := fun d' => d.FeedbackPaced k x d'.pacing) (.inl rfl)
      (.inl rfl) (fun _ _ => noteFeedback_pacing hk x) (fun _ _ => noteFeedback_pacing hk x)
  · rw [if_neg hk]
    exact .inl rfl

/-! ### What a run does not add -/

/-- The capture format stays, capture is not switched on, and no feedback transfer enters the rotation. -/
structure Follows (d' d : Driver w) : Prop where
  capFormat : d'.cap.format = d.cap.format
  feedbackCount : d'.feedbackCount = d.feedbackCount
  active : d'.cap.captureActive = true → d.cap.captureActive = true
  feedback : ∀ k, .feedback k ∈ d'.usb.owned → .feedback k ∈ d.usb.owned

namespace Follows

variable {d₁ d₂ d₃ : Driver w}

theorem trans (h₁ : Follows d₃ d₂) (h₂ : Follows d₂ d₁) : Follows d₃ d₁ :=
  ⟨h₁.capFormat.trans h₂.capFormat, h₁.feedbackCount.trans h₂.feedbackCount, fun h => h₂.active (h₁.active h),
    fun k h => h₂.feedback k (h₁.feedback k h)⟩

theorem of_eq (hc : d'.cap.format = d.cap.format) (ha : d'.cap.captureActive = d.cap.captureActive)
    (ho : d'.usb.owned = d.usb.owned) (hn : d'.feedbackCount = d.feedbackCount) : Follows d' d :=
  ⟨hc, hn, fun h => ha ▸ h, fun _ h => ho ▸ h⟩

/-- Stopping turns capture off and touches no transfer. -/
theorem of_off (hc : d'.cap.format = d.cap.format) (ha : d'.cap.captureActive = false)
    (ho : d'.usb.owned = d.usb.owned) (hn : d'.feedbackCount = d.feedbackCount) : Follows d' d := by
  refine ⟨hc, hn, fun h => ?_, fun _ h => ho ▸ h⟩
  rw [ha] at h
  cases h

/-- A submission of an OUT or a capture transfer. -/
theorem submit {x : Xfer} (hx : ∀ k, x ≠ .feedback k) (ok : Bool) (lengths : List Nat) :
    Follows (d.submit x ok lengths) d := by
  refine ⟨rfl, rfl, id, fun k h => ?_⟩
  cases ok
  · exact h
  · rcases Finset.mem_insert.1 h with h | h
    · exact absurd h.symm (hx k)
    · exact h

theorem failOut : Follows d.failOut d := of_off rfl rfl rfl rfl

theorem failCapture : Follows d.failCapture d := of_off rfl rfl rfl rfl

theorem retireOut : Follows d.retireOut d := of_eq rfl rfl rfl rfl

theorem queueSubmitted (i : Nat) (implicit : Bool) : Follows (d.queueSubmitted i implicit) d := of_eq rfl rfl rfl rfl

theorem wakeCapture : Follows d.wakeCapture d := of_eq rfl rfl rfl rfl

theorem release (x : Xfer) : Follows (d.release x) d := ⟨rfl, rfl, id, fun _ h => Finset.mem_of_mem_erase h⟩

theorem resubmitOut (i : Nat) (implicit ok : Bool) : Follows (d.resubmitOut i implicit ok) d := by
  have hsub : Follows (({ d with playbackWake := d.playbackWake.signalIfWaiting } : Driver w).submit (.out i) ok
      (d.transfers i).lengths) d := (submit (fun _ => Xfer.noConfusion) ok _).trans (of_eq rfl rfl rfl rfl)
  unfold Driver.resubmitOut
  cases ok
  · exact failOut.trans hsub
  · exact (queueSubmitted i implicit).trans hsub

theorem onIso (i : Nat) (ok : Xfer → Bool) : Follows (d.onIso i ok) d := by
  refine onIso_rule (P := fun d' => Follows d' d) (fun _ => of_eq rfl rfl rfl rfl) (fun _ _ => of_off rfl rfl rfl rfl) ?_ ?_ ?_
  · intro _ _ _ stats
    unfold deferTransfer
    split
    · exact of_eq rfl rfl rfl rfl
    · exact of_off rfl rfl rfl rfl
  · intro _ _ _ _
    exact (resubmitOut i true (ok (.out i))).trans (of_eq rfl rfl rfl rfl)
  · intro _ _
    exact (resubmitOut i false (ok (.out i))).trans (of_eq rfl rfl rfl rfl)

theorem noteFeedback (x : Transfer) : Follows (d.noteFeedback x) d := by
  unfold Driver.noteFeedback acceptFeedback
  split
  · split
    · dsimp only
      split <;> exact of_eq rfl rfl rfl rfl
    · exact of_eq rfl rfl rfl rfl
  · exact of_eq rfl rfl rfl rfl

/-- A feedback completion submits again the transfer it was called for, and no other. -/
theorem onFeedback {k : Nat} (hk : .feedback k ∈ d.usb.owned) (x : Transfer) (ok : Xfer → Bool) :
    Follows ((d.release (.feedback k)).onFeedback k x ok) d := by
  have hnote : Follows ((d.release (.feedback k)).noteFeedback x) d := (noteFeedback x).trans (release _)
  refine onFeedback_rule (d := d.release (.feedback k)) (P := fun d' => Follows d' d)
    (retireOut.trans (release _)) (failOut.trans (release _)) ?_ ?_
  · intro _ _
    refine ⟨hnote.capFormat, hnote.feedbackCount, hnote.active, fun j h => ?_⟩
    rcases Finset.mem_insert.1 h with h | h
    · rw [h]
      exact hk
    · exact hnote.feedback j h
  · intro _ _
    exact failOut.trans ⟨hnote.capFormat, hnote.feedbackCount, hnote.active, hnote.feedback⟩

theorem submitPendingImplicitTransfers (ok : Xfer → Bool) : Follows (d.submitPendingImplicitTransfers ok) d := by
  have hloop := submitPending_rule ok (P := fun d' _ => Follows d' d) (Q := fun d' _ => Follows d' d)
    (fun _ h => h) (fun _ _ _ _ h _ => ⟨h.capFormat, h.feedbackCount, h.active, h.feedback⟩)
    (fun d' i _ h _ _ => ?_) (fun d' i _ h _ _ => ?_) d d.pending (of_eq rfl rfl rfl rfl)
  · exact ⟨hloop.capFormat, hloop.feedbackCount, hloop.active, hloop.feedback⟩
  · exact failOut.trans ((submit (fun _ => Xfer.noConfusion) false _).trans
      ⟨h.capFormat, h.feedbackCount, h.active, h.feedback⟩)
  · have hsub : Follows ((d'.takeAndRefill i).submitPrepared i true) d' :=
      (submit (fun _ => Xfer.noConfusion) true _).trans (of_eq rfl rfl rfl rfl)
    exact (queueSubmitted i true).trans (hsub.trans h)

theorem onCapture (j : Nat) (x : Transfer) (ok : Xfer → Bool) : Follows (d.onCapture j x ok) d := by
  have hreceive : Follows (d.receiveCapture x) d := of_eq (Capture.receive_format _) (Capture.receive_active _) rfl rfl
  have hrel : Follows ((d.receiveCapture x).submitPendingImplicitTransfers ok).wakeCapture d :=
    wakeCapture.trans ((submitPendingImplicitTransfers ok).trans hreceive)
  exact onCapture_rule (P := fun d' => Follows d' d) (fun _ => of_eq rfl rfl rfl rfl) (fun _ => failCapture)
    (fun _ => ⟨hrel.capFormat, hrel.feedbackCount, hrel.active, hrel.feedback⟩)
    (fun _ _ => (submit (fun _ => Xfer.noConfusion) true _).trans hrel)
    (fun _ _ => failCapture.trans ((submit (fun _ => Xfer.noConfusion) false _).trans hrel))

theorem step (a : DriverAct) : Follows (d.step a) d := by
  cases a with
  | outDone i status results ok =>
    simp only [Driver.step]
    split
    · exact (onIso i ok).trans ((of_eq rfl rfl rfl rfl : Follows (d.deliverOut i status results) (d.release _)).trans
        (release _))
    · exact of_eq rfl rfl rfl rfl
  | feedbackDone k x ok =>
    simp only [Driver.step]
    split
    · rename_i hk
      exact onFeedback hk x ok
    · exact of_eq rfl rfl rfl rfl
  | captureDone j x ok =>
    simp only [Driver.step]
    split
    · exact (onCapture j x ok).trans (release _)
    · exact of_eq rfl rfl rfl rfl
  | requestStop => exact of_off rfl rfl rfl rfl
  | readCapturePcm frames => exact of_eq (Capture.readCapturePcm_format ..) (Capture.readCapturePcm_active ..) rfl rfl
  | _ => exact of_eq rfl rfl rfl rfl

end Follows

/-! ### The start of playback -/

theorem primeOut_fold (is : List Nat) :
    (is.foldl primeOut d).pacing = d.pacing ∧ (is.foldl primeOut d).cap = d.cap ∧
      (is.foldl primeOut d).usb = d.usb ∧ (is.foldl primeOut d).feedbackCount = d.feedbackCount := by
  induction is generalizing d with
  | nil => exact ⟨rfl, rfl, rfl, rfl⟩
  | cons i is ih => exact ih (d := d.primeOut i)

theorem submitFirst_pacing {ok : Xfer → Bool} {lengths : Xfer → List Nat} {x : Xfer}
    (he : d.submitFirst ok lengths x = some d') : d'.pacing = d.pacing := by
  unfold submitFirst at he
  split at he
  · cases x <;> cases he <;> rfl
  · cases he

theorem submitFirst_follows {ok : Xfer → Bool} {lengths : Xfer → List Nat} {x : Xfer} (hx : ∀ k, x ≠ .feedback k)
    (he : d.submitFirst ok lengths x = some d') : Follows d' d := by
  unfold submitFirst at he
  split at he
  · cases x with
    | out i =>
      cases he
      exact (Follows.queueSubmitted i false).trans ((Follows.submit hx true _).trans (.of_eq rfl rfl rfl rfl))
    | feedback k => exact absurd rfl (hx k)
    | capture j =>
      cases he
      exact (Follows.submit hx true _).trans (.of_eq rfl rfl rfl rfl)
  · cases he

/-- The initial submission changes neither the pacing nor the capture side, and submits the feedback transfers that
`startIsoPump` allocated. -/
theorem startPlayback_pacing {ok : Xfer → Bool} (he : d.startPlayback ok = some d') :
    d'.pacing = d.pacing ∧ (d.feedbackCount = 0 → Follows d' d) := by
  unfold startPlayback submitIsoPump at he
  obtain ⟨-, he⟩ := Option.ite_none_left_eq_some.1 he
  obtain ⟨-, he⟩ := Option.ite_none_left_eq_some.1 he
  obtain ⟨-, he⟩ := Option.ite_none_left_eq_some.1 he
  obtain ⟨dₙ, hloop, rfl⟩ := Option.map_eq_some_iff.1 he
  obtain ⟨hpacing, hcap, husb, hcount⟩ :=
    primeOut_fold (d := { d with pb := { d.pb with playbackStarted := true } }) (List.range d.outCount)
  have hfirst : d.feedbackCount = 0 → ∀ x ∈ d.initialXfers, ∀ k, x ≠ .feedback k := by
    intro h0 x hx k
    simp only [initialXfers, h0, List.range_zero, List.map_nil, List.nil_append, List.mem_map] at hx
    obtain ⟨i, -, rfl⟩ := hx
    exact Xfer.noConfusion
  have hsub := foldlM_rule (P := fun xs (e : Driver w) => e.pacing = d.pacing ∧
      (d.feedbackCount = 0 → (∀ x ∈ xs, ∀ k, x ≠ .feedback k) ∧ Follows e d))
    (fun x xs e e' hP hstep => ?_)
    ⟨hpacing, fun h0 => ⟨hfirst h0, Follows.of_eq (congrArg Capture.format hcap) (congrArg Capture.captureActive hcap)
      (congrArg Usb.owned husb) hcount⟩⟩ hloop
  · refine ⟨hsub.1, fun h0 => ?_⟩
    have hf := (hsub.2 h0).2
    exact ⟨hf.capFormat, hf.feedbackCount, hf.active, hf.feedback⟩
  · obtain ⟨hp, hf⟩ := hP
    refine ⟨(submitFirst_pacing hstep).trans hp, fun h0 => ?_⟩
    obtain ⟨hx, hfollows⟩ := hf h0
    exact ⟨fun y hy => hx y (List.mem_cons_of_mem _ hy),
      (submitFirst_follows (hx x List.mem_cons_self) hstep).trans hfollows⟩

/-! ### The nominal stream -/

/-- The planned lengths of the initial packets, in the order of their transfers. -/
def initialLengths (d : Driver w) : List Nat := (List.range d.outCount).flatMap fun i => (d.transfers i).lengths

/-- A session without feedback: nothing but the scheduler, which carries `r`, decides the counts. -/
structure NominalRun (d : Driver w) (rate period r : Nat) : Prop where
  address : d.pb.format.feedbackEndpointAddress = 0
  mode : d.implicitMode = false
  unowned : ∀ k, .feedback k ∉ d.usb.owned
  pacing : d.pacing.Nominal rate period r

namespace NominalRun

variable {rate period r : Nat}

theorem follow (h : d.NominalRun rate period r) (hf : Follows d' d) (hformat : d'.pb.format = d.pb.format) {r' : Nat}
    (hpacing : d'.pacing.Nominal rate period r') : d'.NominalRun rate period r' := by
  refine ⟨hformat ▸ h.address, ?_, fun k hk => h.unowned k (hf.feedback k hk), hpacing⟩
  have hmode := h.mode
  simp only [implicitMode, implicitFormat, hf.capFormat, hformat, Bool.and_eq_false_iff] at hmode ⊢
  refine hmode.imp (fun hoff => ?_) id
  rw [Bool.eq_false_iff] at hoff ⊢
  exact fun hon => hoff (hf.active hon)

theorem step (h : d.NominalRun rate period r) (a : DriverAct) :
    d.planned a = shares period r (List.replicate (d.plansPackets a) rate) ∧
      d.scheduled a = d.planned a ∧
      (d.step a).NominalRun rate period (rest period r (List.replicate (d.plansPackets a) rate)) := by
  obtain ⟨hplan, hscheduled, hnext⟩ := h.pacing.planPackets (d.plansPackets a)
  have hformat : (d.step a).pb.format = d.pb.format := congrArg (fun s => s.2.2.2.1) (step_shape a)
  have hpacing : (d.step a).pacing = (d.pacing.planPackets 0 (d.plansPackets a)).2 := by
    rw [← h.address]
    by_cases ha : ∃ k x ok, a = .feedbackDone k x ok
    · obtain ⟨k, x, ok, rfl⟩ := ha
      rcases step_feedback_pacing (d := d) k x ok with hsame | ⟨hk, -⟩
      · exact hsame
      · exact absurd hk (h.unowned k)
    · exact step_pacing fun k x ok he => ha ⟨k, x, ok, he⟩
  simp only [planned, scheduled, h.address]
  exact ⟨hplan, hscheduled.trans hplan.symm, h.follow (Follows.step a) hformat (hpacing ▸ hnext)⟩

theorem run (h : d.NominalRun rate period r) (as : List DriverAct) :
    ∃ n, log Driver.step planned d as = shares period r (List.replicate n rate) ∧
      log Driver.step scheduled d as = log Driver.step planned d as ∧
      (Runs.run Driver.step d as).NominalRun rate period (rest period r (List.replicate n rate)) := by
  induction as generalizing d r with
  | nil => exact ⟨0, rfl, rfl, h⟩
  | cons a as ih =>
    obtain ⟨hplan, hscheduled, hnext⟩ := h.step a
    obtain ⟨n, hplans, hscheduleds, hlast⟩ := ih hnext
    refine ⟨d.plansPackets a + n, ?_, ?_, ?_⟩
    · rw [log, hplan, hplans, List.replicate_add, shares_append]
    · rw [log, hscheduled, hscheduleds, log]
    · rw [List.replicate_add, rest_append]
      exact hlast

theorem startPlayback (h : d.NominalRun rate period r) (hcount : d.feedbackCount = 0) {ok : Xfer → Bool}
    (he : d.startPlayback ok = some d') : d'.NominalRun rate period r := by
  obtain ⟨hpacing, hf⟩ := startPlayback_pacing he
  have hformat : d'.pb.format = d.pb.format := congrArg (fun s => s.2.2.2.1) (startPlayback_shape he)
  exact h.follow (hf hcount) hformat (hpacing ▸ h.pacing)

end NominalRun

theorem microframesPerSec_le (f : StreamFormat) : 1 ≤ f.microframesPerSec ∧ f.microframesPerSec ≤ 8000 := by
  have hle : (if f.isHighSpeed then 8000 else 1000) / f.packetIntervalUframes ≤ 8000 := by
    refine (Nat.div_le_self _ _).trans ?_
    split <;> decide
  unfold StreamFormat.microframesPerSec
  exact ⟨Nat.le_max_left .., Nat.max_le.2 ⟨by decide, hle⟩⟩

theorem flatMap_take_chunks (plan : List Nat) (packets count : Nat) :
    ((List.range count).flatMap fun t => (plan.drop (t * packets)).take packets) = plan.take (count * packets) := by
  induction count with
  | zero => simp
  | succ count ih =>
    rw [List.range_succ, List.flatMap_append, ih, Nat.succ_mul, List.take_add]
    simp

theorem flatMap_planned_lengths (plan : List Nat) (packets stride maxBytes count : Nat) :
    ((List.range count).flatMap fun t => (Transfer.planned plan packets stride maxBytes t).lengths) =
      (plan.take (count * packets)).map (· * stride) := by
  rw [← flatMap_take_chunks, List.map_flatMap]
  simp only [Transfer.lengths, Transfer.planned, List.map_map]
  rfl

/-- The fraction of the rate, in 1/65536 of a frame. -/
theorem seed_fraction_lt (rate : Nat) {period : Nat} (hpos : 1 ≤ period) : rate % period * 2 ^ 16 / period < 2 ^ 16 := by
  rw [Nat.div_lt_iff_lt_mul (by omega)]
  exact Nat.mul_comm _ _ ▸ Nat.mul_lt_mul_of_pos_left (Nat.mod_lt _ (by omega)) (by decide)

/-- The rate that `startIsoPump` seeds, without truncation as long as its whole part fits sixteen bits. -/
theorem seed_toNat (rate period : Nat) (hwhole : rate / period < 2 ^ 16) (hpos : 1 ≤ period) :
    ((UInt32.ofNat (rate / period) <<< 16) + UInt32.ofNat (rate % period * 2 ^ 16 / period)).toNat =
      rate / period * 2 ^ 16 + rate % period * 2 ^ 16 / period := by
  have hlt := seed_fraction_lt rate hpos
  rw [UInt32.toNat_add, UInt32.toNat_shiftLeft, UInt32.toNat_ofNat_of_lt' (show rate / period < 2 ^ 32 by omega),
    UInt32.toNat_ofNat_of_lt' (show rate % period * 2 ^ 16 / period < 2 ^ 32 by omega), Nat.shiftLeft_eq]
  rw [show (16 : UInt32).toNat % 32 = 16 from rfl, Nat.mod_eq_of_lt (show rate / period * 2 ^ 16 < 2 ^ 32 by omega)]
  exact Nat.mod_eq_of_lt (by omega)

/-- The first plan is made by the scheduler, and the stream goes on where the plan ends. -/
theorem NominalRun.startIsoPump {maxPacket : Int} {alloc : Bool} (hrate : d.pb.format.sampleRateHz ≤ kIntMax)
    (hfb : d.pb.format.feedbackEndpointAddress = 0) (hmode : d.implicitMode = false)
    (hfree : ∀ k, .feedback k ∉ d.usb.owned) (he : d.startIsoPump maxPacket alloc = some d') :
    let rate := d.pb.format.sampleRateHz
    let period := d.pb.format.microframesPerSec
    ∃ n, d'.initialLengths = (shares period 0 (List.replicate n rate)).map (· * d.stride) ∧
      d'.NominalRun rate period (rest period 0 (List.replicate n rate)) ∧ d'.feedbackCount = 0 := by
  intro rate period
  have hperiod := microframesPerSec_le d.pb.format
  have hint : kIntMax = 2 ^ 31 - 1 := rfl
  unfold Driver.startIsoPump at he
  obtain ⟨hc, he⟩ := Option.ite_none_left_eq_some.1 he
  simp only [initialPlan, hmode, Bool.false_eq_true, if_false, Option.map_some, Option.some.injEq] at he
  have htracks := RationalPacketScheduler.tracks_reset (UInt32.ofNat rate) (UInt32.ofNat period)
  rw [UInt32.toNat_ofNat_of_lt' (show rate < 2 ^ 32 by omega), UInt32.toNat_ofNat_of_lt' (show period < 2 ^ 32 by omega),
    Nat.max_eq_left hperiod.1] at htracks
  obtain ⟨hplan, hlast⟩ := htracks.nextN
    (d.geometry.transferCount * d.userspaceBufferConfig.packetsPerTransferAt period)
  refine ⟨d.geometry.transferCount * d.userspaceBufferConfig.packetsPerTransferAt period, ?_, ⟨?_, ?_, ?_, ?_⟩, ?_⟩
  all_goals subst he
  · rw [← hplan]
    refine (flatMap_planned_lengths ..).trans ?_
    rw [List.take_of_length_le (RationalPacketScheduler.nextN_length ..).le]
  · exact hfb
  · exact hmode
  · exact hfree
  · refine ⟨hlast, by omega, ?_, fun hslow => ?_⟩
    · -- the packet size was checked against the nominal maximum
      have hphysical : ¬maxPacket.toNat / d.stride < rate / period + if 0 < rate % period then 1 else 0 := by
        rw [not_or, not_or, not_or] at hc
        exact hc.2.2.1
      exact Nat.le_min.2 ⟨Nat.le_of_not_lt hphysical, Nat.le_succ _⟩
    · -- below one frame a packet the seed has no whole part
      have hseed := seed_toNat rate period (by omega) hperiod.1
      have hfraction := seed_fraction_lt rate hperiod.1
      refine (UInt32.toNat_shiftRight _ _).trans ?_
      refine (congrArg (· >>> _) hseed).trans ?_
      rw [hslow, Nat.zero_mul, Nat.zero_add, Nat.shiftRight_eq_div_pow]
      exact Nat.div_eq_of_lt hfraction
  · simp [feedbackTransfers, hfb]

end Driver

theorem RationalPacketScheduler.nextN_exact (rate pps : UInt32) (k : Nat) :
    let s := reset rate pps
    let period := max pps.toNat 1
    (s.nextN k).1.sum = k * rate.toNat / period ∧
    (∀ n ∈ (s.nextN k).1, n = rate.toNat / period ∨ n = rate.toNat / period + 1 ∧ rate.toNat % period ≠ 0) ∧
    (s.nextN k).2.remainder.toNat < period ∧ (s.nextN k).2.NoWrap := by
  intro s period
  have htracks := tracks_reset rate pps
  obtain ⟨hcounts, hlast⟩ := htracks.nextN k
  have hpos : 0 < period := htracks.lt
  refine ⟨?_, ?_, ?_, hlast.noWrap⟩
  · rw [hcounts, sum_shares hpos, Nat.zero_add, List.sum_replicate, smul_eq_mul]
  · intro n hn
    rw [hcounts] at hn
    exact mem_shares_replicate hpos hn
  · rw [hlast.remainder]
    exact hlast.lt

/-- The scheduler is exact, and so is the stream without feedback: from the first initial packet through every refill
the planned lengths of the first `k` packets add up to the whole frames of `k` packet times, and the fallback and the
clamp of the packet loop change nothing. -/
theorem nominal_cadence_exact {w : Nat} {d d₁ d₂ : Driver w} {maxPacket : Int} {alloc : Bool} {ok : Xfer → Bool}
    (hrate : d.pb.format.sampleRateHz ≤ kIntMax) (hfb : d.pb.format.feedbackEndpointAddress = 0)
    (hmode : d.implicitMode = false) (hfree : ∀ k, .feedback k ∉ d.usb.owned)
    (h₁ : d.startIsoPump maxPacket alloc = some d₁) (pre : List DriverAct)
    (h₂ : (run Driver.step d₁ pre).startPlayback ok = some d₂) (as : List DriverAct) :
    (∀ (rate pps : UInt32) (k : Nat),
      let s := RationalPacketScheduler.reset rate pps
      let period := max pps.toNat 1
      (s.nextN k).1.sum = k * rate.toNat / period ∧
      (∀ n ∈ (s.nextN k).1, n = rate.toNat / period ∨ n = rate.toNat / period + 1 ∧ rate.toNat % period ≠ 0) ∧
      (s.nextN k).2.remainder.toNat < period ∧ (s.nextN k).2.NoWrap) ∧
    let rate := d.pb.format.sampleRateHz
    let period := d.pb.format.microframesPerSec
    let frames := log Driver.step Driver.planned d₁ pre ++ log Driver.step Driver.planned d₂ as
    let lengths := d₁.initialLengths ++ frames.map (· * d.stride)
    (∀ k ≤ lengths.length, (lengths.take k).sum = k * rate / period * d.stride) ∧
    (∀ n ∈ lengths, n = rate / period * d.stride ∨ n = (rate / period + 1) * d.stride ∧ rate % period ≠ 0) ∧
    log Driver.step Driver.scheduled d₁ pre ++ log Driver.step Driver.scheduled d₂ as = frames := by
  refine ⟨RationalPacketScheduler.nextN_exact, ?_⟩
  intro rate period frames lengths
  obtain ⟨n₁, hinitial, hrun₁, hcount⟩ := Driver.NominalRun.startIsoPump hrate hfb hmode hfree h₁
  obtain ⟨n₂, hplans, hscheduled, hrun₂⟩ := hrun₁.run pre
  have hcount₂ : (run Driver.step d₁ pre).feedbackCount = 0 :=
    run_invariant (I := fun d : Driver w => d.feedbackCount = 0) (fun _ a h => (Driver.Follows.step a).feedbackCount.trans h)
      hcount pre
  obtain ⟨n₃, hplans', hscheduled', -⟩ := (hrun₂.startPlayback hcount₂ h₂).run as
  have hpos : 0 < period := (Driver.microframesPerSec_le d.pb.format).1
  -- one division goes through the plan, the steps before the start and those after it
  have hlengths : lengths = (shares period 0 (List.replicate (n₁ + n₂ + n₃) rate)).map (· * d.stride) := by
    simp only [lengths, frames, hinitial, hplans, hplans', List.replicate_add, shares_append, List.map_append,
      List.append_assoc]
    rfl
  refine ⟨?_, ?_, ?_⟩
  · intro k hk
    rw [hlengths, List.length_map, shares_length, List.length_replicate] at hk
    rw [hlengths, ← List.map_take, shares_take, List.take_replicate, Nat.min_eq_left hk, List.sum_map_mul_right,
      List.map_id', sum_shares hpos, Nat.zero_add, List.sum_replicate, smul_eq_mul]
  · intro n hn
    rw [hlengths] at hn
    obtain ⟨m, hm, rfl⟩ := List.mem_map.1 hn
    rcases mem_shares_replicate hpos hm with rfl | ⟨rfl, hne⟩
    · exact .inl rfl
    · exact .inr ⟨rfl, hne⟩
  · rw [hscheduled, hscheduled']

/-- A frame and a half a packet: two initial packets of one and two frames, then one refill of one frame. -/
theorem nominal_cadence_exact_three_halves :
    ∃ d d₁ d₂ : Driver 64, ∃ pre as : List DriverAct,
      let frames := log Driver.step Driver.planned d₁ pre ++ log Driver.step Driver.planned d₂ as
      let lengths := d₁.initialLengths ++ frames.map (· * d.stride)
      lengths = [4, 8, 4] ∧
        (lengths.take 3).sum = 3 * d.pb.format.sampleRateHz / d.pb.format.microframesPerSec * d.stride := by
  let f : StreamFormat := { sampleRateHz := 1500, bytesPerSample := 2, channels := 2, bInterval := 4 }
  let d : Driver 64 :=
    { pb := { ring := Ring.assign .smallest, format := f, playbackTargetFrames := 2, writeHeadroomFrames := 8 }
      cap := { ring := Ring.assign .smallest }, geometry := { transferCount := 2 } }
  let ok : Xfer → Bool := fun _ => true
  let pre : List DriverAct := [.writePcm [] 6]
  let as : List DriverAct := [.outDone 0 .completed [] ok]
  let d₁ := d.startIsoPump 12 true
  let d₂ := (run Driver.step (d₁.getD d) pre).startPlayback ok
  have hsome : ∀ o : Option (Driver 64), o.isSome = true → o = some (o.getD d) := by
    rintro (_ | d') h
    · cases h
    · rfl
  have h₁ : d₁ = some (d₁.getD d) := hsome d₁ (by decide)
  have h₂ : d₂ = some (d₂.getD d) := hsome d₂ (by decide)
  have h := nominal_cadence_exact (by decide) rfl rfl (fun k => Finset.notMem_empty _) h₁ pre h₂ as
  exact ⟨d, d₁.getD d, d₂.getD d, pre, as, by decide, h.2.1 3 (by decide)⟩

/-! ### The stream paced by feedback -/

namespace Driver

variable {w : Nat} {d d' : Driver w}

/-- A session with a feedback endpoint; `r` is the fraction that the accumulator carries. -/
structure ExplicitRun (d : Driver w) (r : Nat) : Prop where
  address : d.pb.format.feedbackEndpointAddress ≠ 0
  pacing : d.pacing.Explicit r

/-- The stored rate fits a packet, and a completion stores the rate of its packet without truncation. -/
structure RateKept (d : Driver w) : Prop where
  le : d.pacing.framesPerUframe_q16.toNat ≤ d.pacing.maxFramesPerPacket * 2 ^ 16
  stored : ∀ k x ok, (d.step (.feedbackDone k x ok)).pacing.framesPerUframe_q16 = d.pacing.framesPerUframe_q16 ∨
    ∃ p ∈ x.packets.head?, (d.step (.feedbackDone k x ok)).pacing.framesPerUframe_q16.toNat = d.packetRateQ16 x p

namespace ExplicitRun

variable {r : Nat}

theorem rate_lt (h : d.ExplicitRun r) {rate : Nat} (hle : rate ≤ d.pacing.maxFramesPerPacket * 2 ^ 16) : rate < 2 ^ 32 := by
  have hmax := h.pacing.max_le
  omega

theorem rateKept (h : d.ExplicitRun r) : d.RateKept := by
  refine ⟨h.pacing.rate_le, fun k x ok => ?_⟩
  rcases step_feedback_pacing (d := d) k x ok with hsame | ⟨-, p, hp, hle, hstored⟩
  · exact .inl (congrArg Pacing.framesPerUframe_q16 hsame)
  · refine .inr ⟨p, hp, ?_⟩
    rw [hstored]
    exact UInt32.toNat_ofNat_of_lt' (h.rate_lt hle)

theorem step (h : d.ExplicitRun r) (a : DriverAct) :
    d.planned a = shares (2 ^ 16) r (d.ratesUsed a) ∧ d.scheduled a = d.planned a ∧
      (d.step a).ExplicitRun (rest (2 ^ 16) r (d.ratesUsed a)) := by
  obtain ⟨hplan, hscheduled, hnext⟩ := h.pacing.planPackets h.address (d.plansPackets a)
  have hformat : (d.step a).pb.format = d.pb.format := congrArg (fun s => s.2.2.2.1) (step_shape a)
  refine ⟨hplan, hscheduled.trans hplan.symm, hformat ▸ h.address, ?_⟩
  by_cases ha : ∃ k x ok, a = .feedbackDone k x ok
  · obtain ⟨k, x, ok, rfl⟩ := ha
    rcases step_feedback_pacing (d := d) k x ok with hsame | ⟨-, p, -, hle, hstored⟩
    · rw [hsame]
      exact h.pacing
    · rw [hstored]
      refine ⟨h.pacing.carry, h.pacing.lt, h.pacing.max_le, ?_⟩
      exact (UInt32.toNat_ofNat_of_lt' (h.rate_lt hle)).trans_le hle
  · rw [step_pacing fun k x ok he => ha ⟨k, x, ok, he⟩]
    exact hnext

theorem run (h : d.ExplicitRun r) (as : List DriverAct) :
    log Driver.step planned d as = shares (2 ^ 16) r (log Driver.step ratesUsed d as) ∧
      log Driver.step scheduled d as = log Driver.step planned d as ∧
      (Runs.run Driver.step d as).ExplicitRun (rest (2 ^ 16) r (log Driver.step ratesUsed d as)) := by
  induction as generalizing d r with
  | nil => exact ⟨rfl, rfl, h⟩
  | cons a as ih =>
    obtain ⟨hplan, hscheduled, hnext⟩ := h.step a
    obtain ⟨hplans, hscheduleds, hlast⟩ := ih hnext
    refine ⟨?_, ?_, ?_⟩
    · rw [log, log, hplan, hplans, shares_append]
    · rw [log, hscheduled, hscheduleds, log]
    · rw [log, rest_append]
      exact hlast

theorem startPlayback (h : d.ExplicitRun r) {ok : Xfer → Bool} (he : d.startPlayback ok = some d') :
    d'.ExplicitRun r := by
  have hformat : d'.pb.format = d.pb.format := congrArg (fun s => s.2.2.2.1) (startPlayback_shape he)
  exact ⟨hformat ▸ h.address, (startPlayback_pacing he).1 ▸ h.pacing⟩

/-- The seed is the nominal rate, and the packet size that was checked bounds it. -/
theorem startIsoPump {maxPacket : Int} {alloc : Bool} (hmax : maxPacket ≤ 8188)
    (hfb : d.pb.format.feedbackEndpointAddress ≠ 0) (he : d.startIsoPump maxPacket alloc = some d') :
    let rate := d.pb.format.sampleRateHz
    let period := d.pb.format.microframesPerSec
    d'.pacing.framesPerUframe_q16.toNat = rate / period * 2 ^ 16 + rate % period * 2 ^ 16 / period ∧
      d'.ExplicitRun 0 := by
  intro rate period
  have hperiod := microframesPerSec_le d.pb.format
  unfold Driver.startIsoPump at he
  obtain ⟨hc, he⟩ := Option.ite_none_left_eq_some.1 he
  obtain ⟨⟨plan, fifo⟩, -, rfl⟩ := Option.map_eq_some_iff.1 he
  rw [not_or, not_or, not_or] at hc
  have hphysical : rate / period + (if 0 < rate % period then 1 else 0) ≤ maxPacket.toNat / d.stride :=
    Nat.le_of_not_lt hc.2.2.1
  have hsmall : maxPacket.toNat / d.stride ≤ 8188 := (Nat.div_le_self _ _).trans (by omega)
  have hseed := seed_toNat rate period (by omega) hperiod.1
  refine ⟨hseed, hfb, rfl, by decide, (Nat.min_le_left _ _).trans hsmall, ?_⟩
  refine hseed.trans_le ?_
  have hfit : rate / period + (if 0 < rate % period then 1 else 0) ≤ min (maxPacket.toNat / d.stride)
      (rate / period + (if 0 < rate % period then 1 else 0) + 1) := Nat.le_min.2 ⟨hphysical, Nat.le_succ _⟩
  refine le_trans ?_ (Nat.mul_le_mul_right (2 ^ 16) hfit)
  split
  · have hfraction := seed_fraction_lt rate hperiod.1
    rw [Nat.add_mul]
    exact Nat.add_le_add_left (Nat.le_of_lt (by simpa using hfraction)) _
  · rename_i hzero
    rw [Nat.eq_zero_of_not_pos hzero]
    simp

end ExplicitRun

end Driver

/-- Explicit feedback does not drift. After `startIsoPump` the stored rate fits a packet in every state and is stored as
the packets carry it; the first `k` planned counts add up to the whole frames of the `k` rates used, whatever the
feedback does in between, and the fallback and the clamp of the packet loop change nothing. -/
theorem explicit_feedback_exact {w : Nat} {d d₁ d₂ : Driver w} {maxPacket : Int} {alloc : Bool} {ok : Xfer → Bool}
    (hmax : maxPacket ≤ 8188) (hfb : d.pb.format.feedbackEndpointAddress ≠ 0)
    (h₁ : d.startIsoPump maxPacket alloc = some d₁) (pre : List DriverAct)
    (h₂ : (run Driver.step d₁ pre).startPlayback ok = some d₂) (as : List DriverAct) :
    let rate := d.pb.format.sampleRateHz
    let period := d.pb.format.microframesPerSec
    let frames := log Driver.step Driver.planned d₁ pre ++ log Driver.step Driver.planned d₂ as
    let rates := log Driver.step Driver.ratesUsed d₁ pre ++ log Driver.step Driver.ratesUsed d₂ as
    d₁.pacing.framesPerUframe_q16.toNat = rate / period * 2 ^ 16 + rate % period * 2 ^ 16 / period ∧
    (∀ bs, (run Driver.step d₁ bs).RateKept) ∧ (∀ bs, (run Driver.step d₂ bs).RateKept) ∧
    frames.length = rates.length ∧ (∀ k, (frames.take k).sum = (rates.take k).sum / 2 ^ 16) ∧
    log Driver.step Driver.scheduled d₁ pre ++ log Driver.step Driver.scheduled d₂ as = frames := by
  intro rate period frames rates
  obtain ⟨hseed, hrun₁⟩ := Driver.ExplicitRun.startIsoPump hmax hfb h₁
  obtain ⟨hplans, hscheduled, hrun⟩ := hrun₁.run pre
  have hrun₂ := hrun.startPlayback h₂
  obtain ⟨hplans', hscheduled', -⟩ := hrun₂.run as
  -- one accumulator goes through the steps before the start and those after it
  have hframes : frames = shares (2 ^ 16) 0 rates := by
    simp only [frames, rates]
    rw [hplans, hplans', shares_append]
  refine ⟨hseed, fun bs => (hrun₁.run bs).2.2.rateKept, fun bs => (hrun₂.run bs).2.2.rateKept, ?_, fun k => ?_, ?_⟩
  · rw [hframes, shares_length]
  · rw [hframes, shares_take, sum_shares (by decide), Nat.zero_add]
  · rw [hscheduled, hscheduled']

/-- Feedback asks for a frame and a quarter a packet: the fourth packet after it carries the frame that was saved up. -/
theorem explicit_feedback_exact_five_quarters :
    ∃ d₁ d₂ : Driver 64, ∃ pre as : List DriverAct,
      let frames := log Driver.step Driver.planned d₁ pre ++ log Driver.step Driver.planned d₂ as
      let rates := log Driver.step Driver.ratesUsed d₁ pre ++ log Driver.step Driver.ratesUsed d₂ as
      frames = [1, 1, 1, 2] ∧ rates = List.replicate 4 (5 * 2 ^ 14) ∧
        (frames.take 4).sum = (rates.take 4).sum / 2 ^ 16 := by
  let f : StreamFormat :=
    { sampleRateHz := 1500, bytesPerSample := 2, channels := 2, bInterval := 4, feedbackEndpointAddress := 0x81 }
  let d : Driver 64 :=
    { pb := { ring := Ring.assign .smallest, format := f, playbackTargetFrames := 2, writeHeadroomFrames := 8 }
      cap := { ring := Ring.assign .smallest }, geometry := { transferCount := 2 } }
  let ok : Xfer → Bool := fun _ => true
  let feedback : Transfer :=
    { buffer := fun i => if i = 1 then 0x28 else 0, bufferBytes := 4, packets := [{ length := 4, actualLength := 4 }] }
  let pre : List DriverAct := [.writePcm [] 6]
  let out : DriverAct := .outDone 0 .completed [] ok
  let as : List DriverAct := [.feedbackDone 0 feedback ok, out, out, out, out]
  let d₁ := d.startIsoPump 12 true
  let d₂ := (run Driver.step (d₁.getD d) pre).startPlayback ok
  have hsome : ∀ o : Option (Driver 64), o.isSome = true → o = some (o.getD d) := by
    rintro (_ | d') h
    · cases h
    · rfl
  have h₁ : d₁ = some (d₁.getD d) := hsome d₁ (by decide)
  have h₂ : d₂ = some (d₂.getD d) := hsome d₂ (by decide)
  have h := explicit_feedback_exact (by decide) (by decide) h₁ pre h₂ as
  exact ⟨d₁.getD d, d₂.getD d, pre, as, by decide, by decide, h.2.2.2.2.1 4⟩

end UacDriver

import UacDriver.Pump
import UacDriver.Rotation

/-!
# Wakeups of the callbacks

A waiter registers on a wake channel, checks its condition and polls. A callback that makes the condition
nearer to true has to write the channel's eventfd while a waiter is registered. The capture channel is written
wherever capture data is published. The playback channel is written at the end of `onIso` only: the deferral
exit of `onIso` grants credit without it, and so does a pending transfer that `onCapture` releases and that
takes frames out of the ring. `Signals` names these two exits; without them no wakeup is lost.
-/

namespace UacDriver

open Runs

namespace WakeChannel

variable {c c' c'' : WakeChannel}

/-- A later state of a channel with the same waiters. -/
structure Grown (c c' : WakeChannel) : Prop where
  valid : c'.valid = c.valid
  waiters : c'.waiters = c.waiters
  writes : c.writes ≤ c'.writes

namespace Grown

@[refl] theorem refl (c : WakeChannel) : Grown c c := ⟨rfl, rfl, le_rfl⟩

theorem trans (h : Grown c c') (h' : Grown c' c'') : Grown c c'' :=
  ⟨h'.valid.trans h.valid, h'.waiters.trans h.waiters, h.writes.trans h'.writes⟩

theorem signal (h : Grown c c') : Grown c c'.signal := by
  refine h.trans ?_
  unfold WakeChannel.signal
  split <;> exact ⟨rfl, rfl, by simp⟩

theorem signalIfWaiting (h : Grown c c') : Grown c c'.signalIfWaiting := by
  unfold WakeChannel.signalIfWaiting
  split
  · exact h.signal
  · exact h

end Grown

theorem lt_signal (h : c.valid = true) : c.writes < c.signal.writes := by simp [signal, h]

theorem lt_signalIfWaiting (h : c.valid = true) (hw : 0 < c.waiters) : c.writes < c.signalIfWaiting.writes := by
  rw [signalIfWaiting, if_pos ⟨h, hw⟩]
  exact lt_signal h

end WakeChannel

namespace Driver

variable {w : Nat} {d d' x : Driver w}

/-- No wakeup is lost from `d` to `d'`: what a registered waiter waits for grows only with a write to its
channel. -/
structure Heard (d d' : Driver w) : Prop where
  playback : 0 < d.playbackWake.waiters →
    d.pb.writableFrames < d'.pb.writableFrames ∨ d.pb.playbackCredit < d'.pb.playbackCredit →
    d.playbackWake.writes < d'.playbackWake.writes
  capture : 0 < d.captureWake.waiters → d.captureAvailableFrames < d'.captureAvailableFrames →
    d.captureWake.writes < d'.captureWake.writes

/-- Both eventfds exist; `start` refuses to run without them. -/
structure Open (d : Driver w) : Prop where
  playback : d.playbackWake.valid = true
  capture : d.captureWake.valid = true

/-- The completion of transfer `i` takes the deferral exit of `onIso` with credit to grant. -/
def defersCredit (d : Driver w) (i : Nat) : Bool :=
  d.keeps i && d.implicitMode && (d.pending ≠ [] || !d.canPrepare i) && decide (d.pending.length < kMaxTransferCount) &&
    d.pb.playbackStarted && decide (0 < d.outFrames i)

/-- The capture completion of `t` releases the oldest pending transfer. -/
def releasesPending (d : Driver w) (t : Transfer) (ok : Xfer → Bool) : Bool :=
  d.accepts t && d.pending.head?.any fun i => (d.receiveCapture t).canPrepare i && ok (.out i)

/-- A step that does not take an exit without a signal while a playback waiter is registered. -/
def Signals (d : Driver w) : DriverAct → Prop
  | .outDone i status results _ =>
    .out i ∈ d.usb.owned → 0 < d.playbackWake.waiters → (d.deliverOut i status results).defersCredit i = false
  | .captureDone j t ok =>
    .capture j ∈ d.usb.owned → 0 < d.playbackWake.waiters → (d.release (.capture j)).releasesPending t ok = false
  | _ => True

theorem captureAvailableFrames_congr (hcap : d'.cap = d.cap) (hgeometry : d'.geometry = d.geometry)
    (htarget : d'.pb.playbackTargetFrames = d.pb.playbackTargetFrames) :
    d'.captureAvailableFrames = d.captureAvailableFrames := by
  simp only [captureAvailableFrames, captureFrameLimit, hcap, hgeometry, htarget]

namespace Heard

theorem quiet (hwritable : d'.pb.writableFrames ≤ d.pb.writableFrames)
    (hcredit : d'.pb.playbackCredit ≤ d.pb.playbackCredit)
    (hcapture : d'.captureAvailableFrames ≤ d.captureAvailableFrames) : Heard d d' := by
  refine ⟨fun _ h => ?_, fun _ h => absurd h (by omega)⟩
  rcases h with h | h
  · omega
  · omega

theorem failed (ho : d.Open) (hplayback : x.playbackWake = d.playbackWake) (hcapture : x.captureWake = d.captureWake) :
    Heard d x.markTransportFailed := by
  refine ⟨fun _ _ => ?_, fun _ _ => ?_⟩
  · show _ < x.playbackWake.signal.writes
    rw [hplayback]; exact WakeChannel.lt_signal ho.playback
  · show _ < x.captureWake.signal.writes
    rw [hcapture]; exact WakeChannel.lt_signal ho.capture

theorem resubmitOut (ho : d.Open) (havail : x.captureAvailableFrames = d.captureAvailableFrames)
    (hplayback : x.playbackWake = d.playbackWake) (hcapture : x.captureWake = d.captureWake)
    (i : Nat) (implicit ok : Bool) : Heard d (x.resubmitOut i implicit ok) := by
  cases ok
  · refine ⟨fun hw _ => ?_, fun _ _ => ?_⟩
    · show _ < x.playbackWake.signalIfWaiting.signal.writes
      rw [hplayback]
      exact (WakeChannel.lt_signalIfWaiting ho.playback hw).trans_le (WakeChannel.Grown.refl _).signal.writes
    · show _ < x.captureWake.signal.writes
      rw [hcapture]; exact WakeChannel.lt_signal ho.capture
  · refine ⟨fun hw _ => ?_, fun _ h => ?_⟩
    · show _ < x.playbackWake.signalIfWaiting.writes
      rw [hplayback]; exact WakeChannel.lt_signalIfWaiting ho.playback hw
    · have he : (x.resubmitOut i implicit true).captureAvailableFrames = x.captureAvailableFrames :=
        captureAvailableFrames_congr rfl rfl rfl
      omega

end Heard

theorem refill_targetFrames (stride : Nat) (plan : List Nat) (pb : Playback w) (t : Transfer) :
    (refill Playback.drainPacket stride 0 plan (pb, t)).1.playbackTargetFrames = pb.playbackTargetFrames :=
  refill_invariant (I := fun pb' : Playback w => pb'.playbackTargetFrames = pb.playbackTargetFrames) (fun _ _ _ h => h)
    _ _ _ rfl

theorem completed_targetFrames (i : Nat) :
    ((d.completeOut i).creditOut i).pb.playbackTargetFrames = d.pb.playbackTargetFrames := by
  simp only [creditOut]; split <;> rfl

theorem onIso_heard (ok : Xfer → Bool) (ho : d.Open) {i : Nat}
    (hsig : 0 < d.playbackWake.waiters → d.defersCredit i = false) : Heard d (d.onIso i ok) := by
  refine onIso_rule (P := fun d' => Heard d d') (fun _ => ?_) (fun _ _ => ?_) ?_ ?_ ?_
  · exact .quiet le_rfl le_rfl le_rfl
  · exact .failed ho rfl rfl
  · intro hk hm hdefer stats
    have hwritable : ((d.completeOut i).creditOut i).pb.writableFrames = d.pb.writableFrames := by
      simp only [creditOut]; split <;> rfl
    have havail : ((d.completeOut i).creditOut i).captureAvailableFrames = d.captureAvailableFrames :=
      captureAvailableFrames_congr rfl rfl (completed_targetFrames i)
    unfold deferTransfer
    split
    · rename_i hroom
      refine ⟨fun hw h => ?_, fun _ h => ?_⟩
      · exfalso
        -- credit is granted only in the exit that the condition excludes
        have hcredit : ((d.completeOut i).creditOut i).pb.playbackCredit = d.pb.playbackCredit := by
          have hs := hsig hw
          have hdef : (decide (d.pending ≠ []) || !d.canPrepare i) = true := by
            rcases hdefer with hp | hp
            · simp [hp]
            · simp [hp]
          have hroom' : decide (d.pending.length < kMaxTransferCount) = true := decide_eq_true hroom
          simp only [defersCredit, hk, hm, hdef, hroom', Bool.true_and] at hs
          simp only [creditOut]
          split
          · rename_i hst
            have hst' : d.pb.playbackStarted = true := hst
            rw [hst', Bool.true_and, decide_eq_false_iff_not] at hs
            have hz : d.outFrames i = 0 := by omega
            show d.pb.playbackCredit + ((d.outFrames i : Nat) : Int) = _
            rw [hz]; simp
          · rfl
        rcases h with h | h
        · exact absurd (hwritable ▸ h) (lt_irrefl _)
        · exact absurd (hcredit ▸ h) (lt_irrefl _)
      · exact absurd (havail ▸ h) (lt_irrefl _)
    · exact .failed ho rfl rfl
  · intro _ _ _ _
    have havail : (((d.completeOut i).creditOut i).takeAndRefill i).captureAvailableFrames = d.captureAvailableFrames :=
      captureAvailableFrames_congr rfl rfl ((refill_targetFrames ..).trans (completed_targetFrames i))
    exact .resubmitOut ho havail rfl rfl i true _
  · intro _ _
    have havail : (((d.completeOut i).creditOut i).refillScheduled i).captureAvailableFrames = d.captureAvailableFrames :=
      captureAvailableFrames_congr rfl rfl ((refill_targetFrames ..).trans (completed_targetFrames i))
    exact .resubmitOut ho havail rfl rfl i false _

theorem noteFeedback_heard (t : Transfer) :
    (d.noteFeedback t).pb = d.pb ∧ (d.noteFeedback t).cap = d.cap ∧ (d.noteFeedback t).geometry = d.geometry ∧
    (d.noteFeedback t).playbackWake = d.playbackWake ∧ (d.noteFeedback t).captureWake = d.captureWake := by
  unfold noteFeedback
  split
  · split
    · unfold acceptFeedback
      dsimp only
      split <;> exact ⟨rfl, rfl, rfl, rfl, rfl⟩
    · exact ⟨rfl, rfl, rfl, rfl, rfl⟩
  · exact ⟨rfl, rfl, rfl, rfl, rfl⟩

theorem onFeedback_heard (ho : d.Open) (k : Nat) (t : Transfer) (ok : Xfer → Bool) : Heard d (d.onFeedback k t ok) := by
  obtain ⟨hpb, hcap, hgeometry, hpw, hcw⟩ := noteFeedback_heard (d := d) t
  refine onFeedback_rule (P := fun d' => Heard d d') ?_ ?_ (fun _ _ => ?_) (fun _ _ => ?_)
  · exact .quiet le_rfl le_rfl le_rfl
  · exact .failed ho rfl rfl
  · have havail : ((d.noteFeedback t).submit (.feedback k) true t.lengths).captureAvailableFrames =
        d.captureAvailableFrames := captureAvailableFrames_congr hcap hgeometry (congrArg _ hpb)
    refine .quiet ?_ ?_ havail.le
    · exact (congrArg Playback.writableFrames hpb).le
    · exact (congrArg Playback.playbackCredit hpb).le
  · exact .failed ho hpw hcw

/-- What `submitPendingImplicitTransfers` does when it releases nothing: it stops at once, or fails at the first
submit. -/
theorem submitPending_silent {ok : Xfer → Bool}
    (h : d.pending.head?.any (fun i => d.canPrepare i && ok (.out i)) = false) :
    (d.submitPendingImplicitTransfers ok).pb = d.pb ∨
    (d.submitPendingImplicitTransfers ok).playbackWake = d.playbackWake.signal := by
  unfold submitPendingImplicitTransfers
  cases hp : d.pending with
  | nil => exact .inl rfl
  | cons i rest =>
    simp only [hp, List.head?_cons, Option.any_some] at h
    rw [submitPending]
    by_cases hc : d.canPrepare i = true
    · have hok : ok (.out i) = false := by simpa [hc] using h
      simp only [prepareImplicitTransfer_of_canPrepare hc, if_true, hok, Bool.false_eq_true, if_false]
      exact .inr rfl
    · obtain ⟨stats, he⟩ := prepareImplicitTransfer_of_not (by simpa using hc)
      simp only [he, Bool.false_eq_true, if_false]
      exact .inl rfl

/-! ### The channels over a callback -/

structure WakesGrown (d d' : Driver w) : Prop where
  playback : d.playbackWake.Grown d'.playbackWake
  capture : d.captureWake.Grown d'.captureWake

namespace WakesGrown

theorem refl (d : Driver w) : WakesGrown d d := ⟨.refl _, .refl _⟩

theorem failed (h : WakesGrown d x) (hp : d'.playbackWake = x.playbackWake.signal)
    (hc : d'.captureWake = x.captureWake.signal) : WakesGrown d d' :=
  ⟨hp ▸ h.playback.signal, hc ▸ h.capture.signal⟩

theorem congr (h : WakesGrown d x) (hp : d'.playbackWake = x.playbackWake) (hc : d'.captureWake = x.captureWake) :
    WakesGrown d d' :=
  ⟨hp ▸ h.playback, hc ▸ h.capture⟩

theorem isOpen (h : WakesGrown d d') (ho : d.Open) : d'.Open :=
  ⟨h.playback.valid.trans ho.playback, h.capture.valid.trans ho.capture⟩

theorem onIso (i : Nat) (ok : Xfer → Bool) : WakesGrown d (d.onIso i ok) := by
  have hresubmit (x : Driver w) (hp : x.playbackWake = d.playbackWake) (hc : x.captureWake = d.captureWake)
      (implicit ok : Bool) : WakesGrown d (x.resubmitOut i implicit ok) := by
    have hx := (refl d).congr hp hc
    cases ok
    · exact ⟨hx.playback.signalIfWaiting.signal, hx.capture.signal⟩
    · exact ⟨hx.playback.signalIfWaiting, hx.capture⟩
  refine onIso_rule (P := fun d' => WakesGrown d d') (fun _ => (refl d).congr rfl rfl)
    (fun _ _ => (refl d).failed rfl rfl) ?_
    (fun _ _ _ _ => hresubmit (((d.completeOut i).creditOut i).takeAndRefill i) rfl rfl true _)
    (fun _ _ => hresubmit (((d.completeOut i).creditOut i).refillScheduled i) rfl rfl false _)
  intro _ _ _ stats
  unfold deferTransfer
  split
  · exact (refl d).congr rfl rfl
  · exact (refl d).failed rfl rfl

theorem onFeedback (k : Nat) (t : Transfer) (ok : Xfer → Bool) : WakesGrown d (d.onFeedback k t ok) := by
  obtain ⟨-, -, -, hpw, hcw⟩ := noteFeedback_heard (d := d) t
  have hnote : WakesGrown d (d.noteFeedback t) := (refl d).congr hpw hcw
  exact onFeedback_rule (P := fun d' => WakesGrown d d') ((refl d).congr rfl rfl) ((refl d).failed rfl rfl)
    (fun _ _ => hnote.congr rfl rfl) (fun _ _ => hnote.failed rfl rfl)

theorem submitPendingImplicitTransfers (h : WakesGrown d x) (ok : Xfer → Bool) :
    WakesGrown d (x.submitPendingImplicitTransfers ok) := by
  have hloop := submitPending_rule ok (P := fun d' _ => WakesGrown d d') (Q := fun d' _ => WakesGrown d d')
    (fun _ h => h) (fun _ _ _ _ h _ => h.congr rfl rfl) (fun _ _ _ h _ _ => h.failed rfl rfl)
    (fun _ _ _ h _ _ => h.congr rfl rfl) x x.pending h
  exact hloop.congr rfl rfl

theorem onCapture (j : Nat) (t : Transfer) (ok : Xfer → Bool) : WakesGrown d (d.onCapture j t ok) := by
  have hrec : WakesGrown d (d.receiveCapture t) := (refl d).congr rfl rfl
  have hsub := hrec.submitPendingImplicitTransfers ok
  have hwake : WakesGrown d (((d.receiveCapture t).submitPendingImplicitTransfers ok).wakeCapture) :=
    ⟨hsub.playback, hsub.capture.signalIfWaiting⟩
  exact onCapture_rule (P := fun d' => WakesGrown d d') (fun _ => (refl d).congr rfl rfl)
    (fun _ => (refl d).failed rfl rfl) (fun _ => hwake.congr rfl rfl) (fun _ _ => hwake.congr rfl rfl)
    (fun _ _ => hwake.failed rfl rfl)

end WakesGrown

theorem onCapture_heard (ho : d.Open) {j : Nat} {t : Transfer} {ok : Xfer → Bool}
    (hsig : 0 < d.playbackWake.waiters → d.releasesPending t ok = false) : Heard d (d.onCapture j t ok) := by
  obtain ⟨x, hx⟩ : ∃ x, x = (d.receiveCapture t).submitPendingImplicitTransfers ok := ⟨_, rfl⟩
  have hrec : WakesGrown d (d.receiveCapture t) := (WakesGrown.refl d).congr rfl rfl
  have hgrown : WakesGrown d x := hx ▸ hrec.submitPendingImplicitTransfers ok
  -- past the packet loop the capture channel is written before anything else returns
  have hlt (hw : 0 < d.captureWake.waiters) : d.captureWake.writes < x.captureWake.signalIfWaiting.writes :=
    hgrown.capture.writes.trans_lt (WakeChannel.lt_signalIfWaiting (hgrown.capture.valid.trans ho.capture)
      (hgrown.capture.waiters ▸ hw))
  have hplayback (hacc : d.accepts t = true) (hw : 0 < d.playbackWake.waiters) :
      x.pb = d.pb ∨ d.playbackWake.writes < x.playbackWake.writes := by
    have hs := hsig hw
    rw [releasesPending, hacc, Bool.true_and] at hs
    rw [hx]
    refine (submitPending_silent (d := d.receiveCapture t) hs).imp_right fun he => ?_
    rw [he]; exact WakeChannel.lt_signal ho.playback
  -- what the remaining exits add to the state after the pending transfers
  have hexit (hacc : d.accepts t = true) {d' : Driver w} (hpb : d'.pb = x.pb)
      (hpw : x.playbackWake.writes ≤ d'.playbackWake.writes)
      (hcw : x.captureWake.signalIfWaiting.writes ≤ d'.captureWake.writes) : Heard d d' := by
    refine ⟨fun hw h => ?_, fun hw _ => (hlt hw).trans_le hcw⟩
    rcases hplayback hacc hw with he | he
    · rw [hpb, he] at h
      simp at h
    · exact he.trans_le hpw
  refine onCapture_rule (P := fun d' => Heard d d') (fun _ => ?_) (fun _ => ?_) (fun hacc => ?_) (fun hacc _ => ?_)
    (fun hacc _ => ?_)
  · exact .quiet le_rfl le_rfl le_rfl
  · exact .failed ho rfl rfl
  · rw [← hx]; exact hexit hacc rfl le_rfl le_rfl
  · rw [← hx]; exact hexit hacc rfl le_rfl le_rfl
  · rw [← hx]
    exact hexit hacc rfl (WakeChannel.Grown.refl x.playbackWake).signal.writes
      (WakeChannel.Grown.refl x.captureWake.signalIfWaiting).signal.writes

/-! ### Runs -/

theorem step_open (ho : d.Open) (a : DriverAct) : (d.step a).Open := by
  cases a with
  | outDone i status results ok =>
    simp only [step]
    split
    · exact (WakesGrown.onIso (d := d.deliverOut i status results) i ok).isOpen ⟨ho.playback, ho.capture⟩
    · exact ho
  | feedbackDone k t ok =>
    simp only [step]
    split
    · exact (WakesGrown.onFeedback (d := d.release (.feedback k)) k t ok).isOpen ⟨ho.playback, ho.capture⟩
    · exact ho
  | captureDone j t ok =>
    simp only [step]
    split
    · exact (WakesGrown.onCapture (d := d.release (.capture j)) j t ok).isOpen ⟨ho.playback, ho.capture⟩
    · exact ho
  | requestStop =>
    exact ((show WakesGrown d (d.step .requestStop) from (WakesGrown.refl d).failed rfl rfl)).isOpen ho
  | _ => exact ⟨ho.playback, ho.capture⟩

theorem step_heard (ho : d.Open) {a : DriverAct} (ha : a.completes ≠ none) (hsig : d.Signals a) :
    Heard d (d.step a) := by
  cases a with
  | outDone i status results ok =>
    simp only [step]
    split
    · rename_i hi
      have h := onIso_heard (d := d.deliverOut i status results) ok ⟨ho.playback, ho.capture⟩ (hsig hi)
      exact ⟨h.playback, h.capture⟩
    · exact .quiet le_rfl le_rfl le_rfl
  | feedbackDone k t ok =>
    simp only [step]
    split
    · have h := onFeedback_heard (d := d.release (.feedback k)) ⟨ho.playback, ho.capture⟩ k t ok
      exact ⟨h.playback, h.capture⟩
    · exact .quiet le_rfl le_rfl le_rfl
  | captureDone j t ok =>
    simp only [step]
    split
    · rename_i hj
      have h := onCapture_heard (d := d.release (.capture j)) (j := j) ⟨ho.playback, ho.capture⟩ (hsig hj)
      exact ⟨h.playback, h.capture⟩
    · exact .quiet le_rfl le_rfl le_rfl
  | _ => exact absurd rfl ha

end Driver

/-- Over every session whose steps take neither silent exit while a playback waiter is registered, every callback
that adds writable frames, credit or capture frames for a registered waiter has written that waiter's channel. -/
theorem callbacks_lose_no_wakeup {w : Nat} (d : Driver w) (ho : d.Open) (as : List DriverAct)
    (h : Meets Driver.step Driver.Signals d as) (pre : List DriverAct) (a : DriverAct) (post : List DriverAct)
    (has : as = pre ++ a :: post) (ha : a.completes ≠ none) :
    Driver.Heard (run Driver.step d pre) (run Driver.step d (pre ++ [a])) := by
  subst has
  have hopen : (run Driver.step d pre).Open :=
    run_invariant (I := Driver.Open) (fun _ a ho => Driver.step_open ho a) ho pre
  rw [run_append]
  exact Driver.step_heard hopen ha (h.at_append)

/-- A started implicit-feedback session: two OUT transfers of one packet, two frames each, primed from the first
two capture completions, with four frames left in the ring. -/
def implicitSession : Option (Driver 64) := do
  let z : RingSize 64 := .smallest
  let f : StreamFormat := { sampleRateHz := 2000, bytesPerSample := 2, channels := 2, bInterval := 4 }
  let d : Driver 64 :=
    { pb := { ring := Ring.assign z, playbackTargetFrames := 2, writeHeadroomFrames := 8 }
      cap := { ring := Ring.assign z }, geometry := { transferCount := 2 }
      userspaceBufferConfig := { transferCount := 2, packetsPerTransfer := 1 } }
  let d ← ((d.start f).resetCapture { f with implicitFeedback := true }).startCapturePump 12 fun _ => true
  let packet : Transfer := { packets := [{ length := 12, actualLength := 8 }] }
  let d ← (run Driver.step d [.captureDone 0 packet fun _ => true, .captureDone 1 packet fun _ => true]).startIsoPump 12 true
  (run Driver.step d [.writePcm [] 8]).startPlayback fun _ => true

/-- With metadata at hand the completion is refilled and the waiter is woken. -/
theorem callbacks_lose_no_wakeup_refilled :
    ∃ d : Driver 64, ∃ pre : List DriverAct, ∃ a : DriverAct,
      let s := run Driver.step d pre
      let s' := run Driver.step d (pre ++ [a])
      s.playbackWake.waiters = 1 ∧ s.pb.playbackCredit < s'.pb.playbackCredit ∧
      s.playbackWake.writes < s'.playbackWake.writes := by
  let d := implicitSession.get (by decide)
  let packet : Transfer := { packets := [{ length := 12, actualLength := 8 }] }
  let pre : List DriverAct := [.registerPlayback, .captureDone 0 packet fun _ => true]
  let a : DriverAct := .outDone 0 .completed [] fun _ => true
  have hmeets : Meets Driver.step Driver.Signals d (pre ++ [a]) :=
    ⟨trivial, fun _ _ => by decide, fun _ _ => by decide, trivial⟩
  have h := callbacks_lose_no_wakeup d ⟨by decide, by decide⟩ (pre ++ [a]) hmeets pre a [] rfl nofun
  exact ⟨d, pre, a, by decide, by decide, h.playback (by decide) (.inr (by decide))⟩

/-- Both silent exits in one session, with a waiter registered. The completion of transfer 0 finds no metadata: it
grants two frames of credit and writes nothing. The next capture completion releases it and takes two frames
out of the ring, again without a write. -/
theorem deferral_and_release_are_silent :
    ∃ d ∈ implicitSession, ∃ a a' : DriverAct,
      let s₀ := run Driver.step d [.registerPlayback]
      let s₁ := run Driver.step d [.registerPlayback, a]
      let s₂ := run Driver.step d [.registerPlayback, a, a']
      d.Open ∧ a.completes = some (.out 0) ∧ a'.completes = some (.capture 0) ∧ s₀.playbackWake.waiters = 1 ∧
      s₀.pb.playbackCredit = 0 ∧ s₁.pb.playbackCredit = 2 ∧ s₁.pb.writableFrames = 6 ∧ s₂.pb.writableFrames = 8 ∧
      s₂.playbackWake.writes = 0 ∧ ¬ Driver.Heard s₀ s₁ ∧ ¬ Driver.Heard s₁ s₂ := by
  let d := implicitSession.get (by decide)
  let packet : Transfer := { packets := [{ length := 12, actualLength := 8 }] }
  refine ⟨d, Option.get_mem _, .outDone 0 .completed [] fun _ => true, .captureDone 0 packet fun _ => true,
    ⟨by decide, by decide⟩, rfl, rfl, by decide, by decide, by decide, by decide, by decide, by decide, fun h => ?_,
    fun h => ?_⟩
  · exact absurd (h.playback (by decide) (.inr (by decide))) (by decide)
  · exact absurd (h.playback (by decide) (.inl (by decide))) (by decide)

end UacDriver

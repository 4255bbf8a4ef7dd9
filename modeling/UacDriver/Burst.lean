import UacDriver.CreditLead
import UacDriver.Envelope
import UacDriver.Starvation

/-!
# The catch-up burst

What a callback does to the playback ring is the drains of its log, one after the other: `Pumps` says so of each callback,
and a property of the ring and of the counters that only drains move follows from what one drain does. The burst meter
counts the quanta published since the last drain that took bytes; its high water is the longest stretch of publications
with no such drain in between, and that stretch lies in the ring whole.
-/

namespace UacDriver

open Runs Episodes

variable {w : Nat}

/-! ### What callbacks do to the ring -/

namespace Playback

/-- The fields of the ring and its counters, without those of the queue, the credit and the underruns. -/
def drainSide (p : Playback w) : Playback w :=
  { p with
    playbackStarted := false, queuedOutFrames := 0, playbackCredit := 0, playbackUnderruns := 0
    playbackUnderrunActive := false }

/-- On the drain side, `q` is what the drains of the log make of `p`, and each takes what the log says. -/
def Pumps (p : Playback w) : List PumpEvent → Playback w → Prop
  | [], q => q.drainSide = p.drainSide
  | .drain requested drained :: events, q =>
    drained = p.drainCount requested ∧ Pumps (p.drainRing requested).1 events q
  | .defer _ :: events, q | .submit _ :: events, q => Pumps p events q

theorem drainRing_drainSide {p q : Playback w} (h : p.drainSide = q.drainSide) (bytes : Nat) :
    (p.drainRing bytes).1.drainSide = (q.drainRing bytes).1.drainSide := by
  have hself (p : Playback w) : (p.drainRing bytes).1.drainSide = (p.drainSide.drainRing bytes).1.drainSide := rfl
  rw [hself, h, ← hself]

namespace Pumps

variable {p q r : Playback w} {events events' : List PumpEvent}

/-- What has been done on the other side before. -/
theorem after (hside : q.drainSide = p.drainSide) (h : Pumps q events r) : Pumps p events r := by
  induction events generalizing p q with
  | nil => exact Eq.trans h hside
  | cons event events ih =>
    cases event with
    | drain requested drained =>
      obtain ⟨hcount, hrest⟩ := h
      have hring : q.drainSide.ring = p.drainSide.ring := by rw [hside]
      refine ⟨hcount.trans ?_, ih (drainRing_drainSide hside requested) hrest⟩
      exact congrArg (fun r : Ring w => min r.used requested) hring
    | defer queued => exact ih hside h
    | submit frames => exact ih hside h

theorem trans (h : Pumps p events q) (h' : Pumps q events' r) : Pumps p (events ++ events') r := by
  induction events generalizing p with
  | nil => exact h'.after h
  | cons event events ih =>
    cases event with
    | drain requested drained => exact ⟨h.1, ih h.2⟩
    | defer queued => exact ih h
    | submit frames => exact ih h

/-- What is done on the other side afterwards. -/
theorem congr (h : Pumps p events q) (hside : r.drainSide = q.drainSide) : Pumps p events r := by
  rw [← List.append_nil events]
  exact h.trans hside

theorem event (h : Pumps p events q) (event : PumpEvent) (hno : event.short? = none) : Pumps p (events ++ [event]) q := by
  refine h.trans ?_
  cases event with
  | drain requested drained => cases hno
  | defer queued => exact rfl
  | submit frames => exact rfl

theorem refill (p : Playback w) (stride n : Nat) (plan : List Nat) (x : Transfer) :
    Pumps p (p.refillLog stride plan) (UacDriver.refill Playback.drainPacket stride n plan (p, x)).1 := by
  induction plan generalizing p n x with
  | nil => exact rfl
  | cons frames plan ih =>
    rw [UacDriver.refill, refillLog]
    unfold fillPacket
    split
    · exact ⟨rfl, ih ..⟩
    · exact ih ..

/-- What one drain does to a property of the drain side and of the log, callbacks do. -/
theorem rule {P : Playback w → List PumpEvent → Prop}
    (side : ∀ p q log, q.drainSide = p.drainSide → P p log → P q log)
    (drain : ∀ p log requested, P p log →
      P (p.drainRing requested).1 (log ++ [.drain requested (p.drainCount requested)]))
    (quiet : ∀ p log event, event.short? = none → P p log → P p (log ++ [event]))
    (h : Pumps p events q) (log : List PumpEvent) (hp : P p log) : P q (log ++ events) := by
  induction events generalizing p log with
  | nil =>
    rw [List.append_nil]
    exact side p q log h hp
  | cons event events ih =>
    rw [List.append_cons]
    cases event with
    | drain requested drained =>
      obtain ⟨rfl, hrest⟩ := h
      exact ih hrest _ (drain p log requested hp)
    | defer queued => exact ih h _ (quiet p log _ rfl hp)
    | submit frames => exact ih h _ (quiet p log _ rfl hp)

end Pumps

end Playback

namespace Driver

open Playback

variable (d : Driver w)

theorem takeAndRefill_pumps (i : Nat) : Pumps d.pb (d.pb.refillLog d.stride (d.implicitPlan i)) (d.takeAndRefill i).pb :=
  .refill ..

theorem prepareImplicitTransfer_pumps {i : Nat} (h : (d.prepareImplicitTransfer i).2 = true) :
    Pumps d.pb (d.pb.refillLog d.stride (d.implicitPlan i)) (d.prepareImplicitTransfer i).1.pb := by
  rw [prepareImplicitTransfer_prepared] at h
  rw [prepareImplicitTransfer_of_canPrepare h]
  exact d.takeAndRefill_pumps i

theorem creditOut_drainSide (i : Nat) : ((d.completeOut i).creditOut i).pb.drainSide = d.pb.drainSide := by
  unfold creditOut
  split <;> rfl

theorem deferTransfer_pumps (i : Nat) : Pumps d.pb d.deferLog (d.deferTransfer i).pb := by
  unfold deferTransfer deferLog
  split <;> exact rfl

theorem resubmitOut_pumps (i : Nat) (implicit ok : Bool) : Pumps d.pb (d.submitLog i ok) (d.resubmitOut i implicit ok).pb := by
  unfold resubmitOut submitLog
  cases ok <;> exact rfl

theorem onIso_pumps (i : Nat) (ok : Xfer → Bool) : Pumps d.pb (d.onIsoLog i ok) (d.onIso i ok).pb := by
  unfold onIso onIsoLog
  split
  · exact rfl
  split
  · exact rfl
  have hcredit := d.creditOut_drainSide i
  dsimp only
  generalize (d.completeOut i).creditOut i = e at hcredit
  refine Pumps.after hcredit ?_
  split
  · split
    · exact e.deferTransfer_pumps i
    split
    · rename_i hprepared
      exact (e.prepareImplicitTransfer_pumps hprepared).trans (resubmitOut_pumps ..)
    · rename_i hrefused
      obtain ⟨stats, he⟩ := prepareImplicitTransfer_refused hrefused
      rw [he]
      exact (e.withStats stats).deferTransfer_pumps i
  · refine Pumps.trans ?_ (resubmitOut_pumps ..)
    exact .refill ..

theorem submitPending_pumps (ok : Xfer → Bool) (pending : List Nat) :
    Pumps d.pb (submitPendingLog ok pending d) (submitPending ok pending d).1.pb := by
  induction pending generalizing d with
  | nil => exact rfl
  | cons i rest ih =>
    rw [submitPending, submitPendingLog]
    split
    · rename_i hprepared
      have hprepare := d.prepareImplicitTransfer_pumps hprepared
      generalize d.prepareImplicitTransfer i = r at hprepare
      dsimp only
      cases ok (.out i) with
      | true =>
        rw [if_pos rfl, if_pos rfl, submitLog, if_pos rfl]
        have hqueued : Pumps d.pb _ ((r.1.submitPrepared i true).queueSubmitted i true).pb :=
          (hprepare.event (.submit ((r.1.submitPrepared i true).outFrames i)) rfl).congr rfl
        exact hqueued.trans (ih _)
      | false =>
        rw [if_neg Bool.false_ne_true, if_neg Bool.false_ne_true, submitLog, if_neg Bool.false_ne_true, List.append_nil,
          List.append_nil]
        exact hprepare.congr rfl
    · rename_i hrefused
      obtain ⟨stats, he⟩ := prepareImplicitTransfer_refused hrefused
      rw [he]
      exact rfl

theorem onCapture_pumps (j : Nat) (x : Transfer) (ok : Xfer → Bool) :
    Pumps d.pb (d.onCaptureLog x ok) (d.onCapture j x ok).pb := by
  unfold onCaptureLog
  cases ha : d.accepts x with
  | false =>
    refine onCapture_rule (P := fun d' => Pumps d.pb [] d'.pb) (fun _ => rfl) (fun _ => rfl) ?_ ?_ ?_
    all_goals
      intro ha'
      exact absurd (ha.symm.trans ha') Bool.false_ne_true
  | true =>
    rw [if_pos rfl]
    have hpump : Pumps d.pb (submitPendingLog ok (d.receiveCapture x).pending (d.receiveCapture x))
        ((d.receiveCapture x).submitPendingImplicitTransfers ok).pb :=
      (d.receiveCapture x).submitPending_pumps ok (d.receiveCapture x).pending
    refine onCapture_rule
      (P := fun d' => Pumps d.pb (submitPendingLog ok (d.receiveCapture x).pending (d.receiveCapture x)) d'.pb)
      (fun ha' => absurd (ha'.symm.trans ha) Bool.false_ne_true) (fun ha' => absurd (ha'.symm.trans ha) Bool.false_ne_true)
      ?_ ?_ ?_
    all_goals
      generalize (d.receiveCapture x).submitPendingImplicitTransfers ok = released at hpump
      intros
      exact hpump

theorem onFeedback_pb (k : Nat) (x : Transfer) (ok : Xfer → Bool) : (d.onFeedback k x ok).pb = d.pb := by
  have hnote : (d.noteFeedback x).pb = d.pb := by
    unfold noteFeedback
    split
    · split
      · unfold acceptFeedback
        dsimp only
        split <;> rfl
      · rfl
    · rfl
  exact onFeedback_rule (P := fun d' => d'.pb = d.pb) rfl rfl (fun _ _ => hnote) fun _ _ => hnote

/-- A step of the event thread or of the control thread that leaves the policy alone. -/
def pumping : DriverAct → Bool
  | .outDone .. | .feedbackDone .. | .captureDone .. | .requestStop => true
  | _ => false

theorem step_pumps {a : DriverAct} (h : pumping a = true) : Pumps d.pb (d.stepLog a) (d.step a).pb := by
  cases a with
  | outDone i status results ok =>
    unfold step stepLog
    dsimp only
    split
    · exact (d.deliverOut i status results).onIso_pumps i ok
    · exact rfl
  | captureDone j x ok =>
    unfold step stepLog
    dsimp only
    split
    · exact (d.release (.capture j)).onCapture_pumps j x ok
    · exact rfl
  | feedbackDone k x ok =>
    unfold step
    dsimp only
    split
    · exact congrArg drainSide ((d.release (.feedback k)).onFeedback_pb k x ok)
    · exact rfl
  | requestStop => exact rfl
  | _ => cases h

end Driver

/-! ### What a publication does -/

namespace Playback

variable {p : Playback w}

/-- The ring and its meter. -/
def stock (p : Playback w) : Ring w × StreamFormat × Nat × Nat :=
  (p.ring, p.format, p.writesSinceDrain, p.maxWritesBetweenDrains)

theorem stock_of_drainSide {q : Playback w} (h : q.drainSide = p.drainSide) : q.stock = p.stock := by
  show q.drainSide.stock = p.drainSide.stock
  rw [h]

theorem preparePlaybackWrite_stock (frames : Int) : (p.preparePlaybackWrite frames).1.stock = p.stock := by
  unfold preparePlaybackWrite
  split
  · rfl
  · dsimp only
    split <;> rfl

theorem takePlaybackCredit_stock (frames : Int) : (p.takePlaybackCredit frames).1.stock = p.stock := by
  unfold takePlaybackCredit
  split
  · rfl
  split
  · rfl
  split <;> rfl

theorem chargePlaybackCredit_stock (frames : Int) : (p.chargePlaybackCredit frames).stock = p.stock := by
  unfold chargePlaybackCredit
  split
  · rfl
  split <;> rfl

/-- A block is refused and leaves the stock alone, or the region is filled, committed and noted. -/
theorem submitQuantum_stock (accepting : Bool) (policy : Nat) (frames : Int) (packed : Option (List UInt8))
    (charge : Bool) :
    (p.submitQuantum accepting policy frames packed charge).2 = false ∧
        (p.submitQuantum accepting policy frames packed charge).1.stock = p.stock ∨
      (p.submitQuantum accepting policy frames packed charge).2 = true ∧ 0 < frames ∧ frames ≤ p.writableFrames ∧
        (p.preparePlaybackWrite frames).2.frames = frames ∧ ∃ (p₂ : Playback w) (bytes : List UInt8), p₂.stock = p.stock ∧
          (p.submitQuantum accepting policy frames packed charge).1 =
            ((p₂.fillRegion (p.preparePlaybackWrite frames).2 bytes).commitPlaybackWrite
              (p.preparePlaybackWrite frames).2).noteQuantumWritten := by
  unfold submitQuantum
  split
  · exact .inl ⟨rfl, rfl⟩
  rename_i hguard
  split
  swap
  · exact .inl ⟨rfl, rfl⟩
  rename_i hwritable
  dsimp only
  split
  swap
  · exact .inl ⟨rfl, preparePlaybackWrite_stock frames⟩
  rename_i hwhole
  have hpaid : (if (!charge) = true ∨ policy ≠ 1 then ((p.preparePlaybackWrite frames).1, true)
      else (p.preparePlaybackWrite frames).1.takePlaybackCredit frames).1.stock = p.stock := by
    split
    · exact preparePlaybackWrite_stock frames
    · exact (takePlaybackCredit_stock frames).trans (preparePlaybackWrite_stock frames)
  generalize (if (!charge) = true ∨ policy ≠ 1 then ((p.preparePlaybackWrite frames).1, true)
    else (p.preparePlaybackWrite frames).1.takePlaybackCredit frames) = r at hpaid
  obtain ⟨p₂, paid⟩ := r
  have hpos : 0 < frames := by omega
  cases paid with
  | false => exact .inl ⟨rfl, hpaid⟩
  | true =>
    cases packed with
    | none => exact .inl ⟨rfl, hpaid⟩
    | some bytes => exact .inr ⟨rfl, hpos, hwritable, hwhole, p₂, bytes, hpaid, rfl⟩

theorem writePcm_meterSide (data : List UInt8) (frames : Int) :
    (p.writePcm data frames).1.writesSinceDrain = p.writesSinceDrain ∧
      (p.writePcm data frames).1.maxWritesBetweenDrains = p.maxWritesBetweenDrains := by
  have hprepare := preparePlaybackWrite_stock (p := p) frames
  simp only [stock, Prod.mk.injEq] at hprepare
  unfold writePcm
  split
  · exact ⟨rfl, rfl⟩
  · dsimp only [commitPlaybackWrite]
    split
    · exact hprepare.2.2
    · exact hprepare.2.2

end Playback

/-! ### The meter -/

/-- A drain that took bytes, as the end of a burst. -/
def PumpEvent.burstEnd? : PumpEvent → Option Bool
  | .drain _ drained => if 0 < drained then some false else none
  | .defer _ | .submit _ => none

/-- What the burst meter sees of a step: a drain that took bytes (`false`), a quantum published (`true`). -/
def Driver.burstLog (d : Driver w) : DriverAct → List Bool
  | .submitQuantum accepting policy frames packed charge =>
    if (d.pb.submitQuantum accepting policy frames packed charge).2 then [true] else []
  | a => (d.stepLog a).filterMap PumpEvent.burstEnd?

/-- The meter is that of the log. -/
structure Playback.Bursts (p : Playback w) (log : List Bool) : Prop where
  current : p.writesSinceDrain = trailing log
  high : IsGreatest (runLengths log) p.maxWritesBetweenDrains

namespace Playback.Bursts

variable {p q : Playback w} {log : List Bool}

theorem congr (h : p.Bursts log) (hcurrent : q.writesSinceDrain = p.writesSinceDrain)
    (hhigh : q.maxWritesBetweenDrains = p.maxWritesBetweenDrains) : q.Bursts log :=
  ⟨hcurrent.trans h.current, by rw [hhigh]; exact h.high⟩

theorem of_stock (h : p.Bursts log) (hstock : q.stock = p.stock) : q.Bursts log :=
  h.congr (congrArg (fun stock => stock.2.2.1) hstock) (congrArg (fun stock => stock.2.2.2) hstock)

theorem drain (h : p.Bursts log) (requested : Nat) : (p.drainRing requested).1.Bursts
    (log ++ (PumpEvent.burstEnd? (.drain requested (p.drainCount requested))).toList) := by
  unfold PumpEvent.burstEnd?
  dsimp only
  by_cases htook : 0 < p.drainCount requested
  · rw [if_pos htook]
    refine ⟨?_, ?_⟩
    · rw [Option.toList_some, trailing_concat]
      exact if_pos htook
    · have hhigh := isGreatest_runLengths_concat h.high false
      rwa [trailing_concat, if_neg Bool.false_ne_true, Nat.max_zero] at hhigh
  · rw [if_neg htook, Option.toList_none, List.append_nil]
    exact h.congr (if_neg htook) rfl

theorem noteQuantumWritten (h : p.Bursts log) : p.noteQuantumWritten.Bursts (log ++ [true]) := by
  have hcurrent : p.writesSinceDrain + 1 = trailing (log ++ [true]) := by
    rw [trailing_concat, if_pos rfl, h.current]
  refine ⟨hcurrent, ?_⟩
  change IsGreatest _ (max p.maxWritesBetweenDrains (p.writesSinceDrain + 1))
  rw [hcurrent]
  exact isGreatest_runLengths_concat h.high true

theorem commit (h : p.Bursts log) (region : PlaybackWriteRegion w) (bytes : List UInt8) :
    ((p.fillRegion region bytes).commitPlaybackWrite region).Bursts log := by
  unfold commitPlaybackWrite
  split <;> exact h.congr rfl rfl

theorem pumps {events : List PumpEvent} (h : p.Bursts log) (hpumps : p.Pumps events q) :
    q.Bursts (log ++ events.filterMap PumpEvent.burstEnd?) := by
  have happend (events : List PumpEvent) (event : PumpEvent) :
      log ++ (events ++ [event]).filterMap PumpEvent.burstEnd? =
        log ++ events.filterMap PumpEvent.burstEnd? ++ event.burstEnd?.toList := by
    rw [List.filterMap_append, ← List.append_assoc, List.filterMap_cons]
    cases event.burstEnd? <;> rfl
  refine List.nil_append events ▸
    hpumps.rule (P := fun p events => p.Bursts (log ++ events.filterMap PumpEvent.burstEnd?)) ?_ ?_ ?_ [] ?_
  · intro p q _ hside hp
    exact hp.of_stock (stock_of_drainSide hside)
  · intro p events requested hp
    rw [happend]
    exact hp.drain requested
  · intro p events event hquiet hp
    rw [happend]
    cases event with
    | drain requested drained => cases hquiet
    | defer queued => rwa [PumpEvent.burstEnd?, Option.toList_none, List.append_nil]
    | submit frames => rwa [PumpEvent.burstEnd?, Option.toList_none, List.append_nil]
  · rwa [List.filterMap_nil, List.append_nil]

theorem step {d : Driver w} (h : d.pb.Bursts log) (a : DriverAct) : (d.step a).pb.Bursts (log ++ d.burstLog a) := by
  have hquiet {q : Playback w} (hq : q.Bursts log) : q.Bursts (log ++ []) := by rwa [List.append_nil]
  cases a with
  | outDone i status results ok => exact h.pumps (d.step_pumps rfl)
  | feedbackDone k x ok => exact h.pumps (d.step_pumps rfl)
  | captureDone j x ok => exact h.pumps (d.step_pumps rfl)
  | requestStop => exact h.pumps (d.step_pumps rfl)
  | writePcm data frames => exact hquiet (h.congr (writePcm_meterSide data frames).1 (writePcm_meterSide data frames).2)
  | submitQuantum accepting policy frames packed charge =>
    change ((d.pb.submitQuantum accepting policy frames packed charge).1).Bursts (log ++ if _ then [true] else [])
    rcases submitQuantum_stock (p := d.pb) accepting policy frames packed charge with
      ⟨hno, hstock⟩ | ⟨hyes, -, -, -, p₂, bytes, hstock, heq⟩
    · rw [hno, if_neg Bool.false_ne_true]
      exact hquiet (h.of_stock hstock)
    · rw [hyes, if_pos rfl, heq]
      exact ((h.of_stock hstock).commit _ bytes).noteQuantumWritten
  | takePlaybackCredit frames => exact hquiet (h.of_stock (takePlaybackCredit_stock frames))
  | chargePlaybackCredit frames => exact hquiet (h.of_stock (chargePlaybackCredit_stock frames))
  | _ => exact hquiet (h.congr rfl rfl)

theorem run {d : Driver w} (h : d.pb.Bursts log) (as : List DriverAct) :
    (Runs.run Driver.step d as).pb.Bursts (log ++ Runs.log Driver.step Driver.burstLog d as) := by
  induction as generalizing d log with
  | nil => rwa [Runs.log, List.append_nil]
  | cons a as ih =>
    rw [Runs.log, ← List.append_assoc]
    exact ih (h.step a)

end Playback.Bursts

/-- In every run since the last reset the burst meter is the length of the longest stretch of published quanta with no
drain in between that took bytes, whatever callback drains. -/
theorem burst_exact (d : Driver w) (as : List DriverAct) :
    IsGreatest (runLengths (log Driver.step Driver.burstLog d.resetBurst as))
      (run Driver.step d.resetBurst as).pb.maxWritesBetweenDrains := by
  have hfresh : d.resetBurst.pb.Bursts [] := ⟨rfl, isGreatest_runLengths_nil⟩
  exact (hfresh.run as).high

/-! ### A burst lies in the ring -/

namespace Playback

variable {p : Playback w}

theorem commit_used {region : PlaybackWriteRegion w}
    (hregion : region = {} ∨ region.Fits p) (bytes : List UInt8) :
    ((p.fillRegion region bytes).commitPlaybackWrite region).ring.used = p.ring.used + region.frames * p.stride ∧
      ((p.fillRegion region bytes).commitPlaybackWrite region).ring.size = p.ring.size := by
  unfold commitPlaybackWrite
  split
  · rename_i hempty
    refine ⟨?_, rfl⟩
    rcases hregion with rfl | hfits
    · rw [Nat.zero_mul]
      rfl
    · have hzero : region.frames * p.stride = 0 := by
        rw [← hfits.stride]
        rcases hempty with h | h
        · rw [h, Nat.zero_mul]
        · rw [h, Nat.mul_zero]
      rw [hzero]
      rfl
  · rename_i hsome
    rcases hregion with rfl | hfits
    · exact absurd (.inl rfl) hsome
    · refine ⟨?_, rfl⟩
      have hfit : p.ring.used + region.frames * p.stride ≤ p.ring.size.bytes := hfits.stride ▸ hfits.fit
      dsimp only
      rw [hfits.cursor, hfits.stride]
      exact Ring.used_advanceHead (r := p.ring) hfit

/-- The quanta of the current burst are in the ring, and those of the longest fit the limit. -/
structure BurstFits (p : Playback w) (quantum limit : Nat) : Prop where
  used_le : p.ring.used ≤ p.ring.size.bytes
  current : quantum * p.writesSinceDrain ≤ p.bufferedFrames
  high : quantum * p.maxWritesBetweenDrains ≤ limit

namespace BurstFits

variable {q : Playback w} {quantum limit : Nat}

theorem of_stock (h : p.BurstFits quantum limit) (hstock : q.stock = p.stock) : q.BurstFits quantum limit := by
  simp only [stock, Prod.mk.injEq] at hstock
  obtain ⟨hring, hformat, hcurrent, hhigh⟩ := hstock
  have hstride : q.stride = p.stride := congrArg StreamFormat.frameStride hformat
  refine ⟨?_, ?_, ?_⟩
  · rw [hring]
    exact h.used_le
  · rw [hcurrent, bufferedFrames_eq, hring, hstride, ← bufferedFrames_eq]
    exact h.current
  · rw [hhigh]
    exact h.high

theorem drain (h : p.BurstFits quantum limit) (requested : Nat) : (p.drainRing requested).1.BurstFits quantum limit := by
  refine ⟨?_, ?_, h.high⟩
  · rw [drainRing_used, drainRing_size]
    exact (Nat.sub_le _ _).trans h.used_le
  · by_cases htook : 0 < p.drainCount requested
    · have hcleared : (p.drainRing requested).1.writesSinceDrain = 0 := if_pos htook
      rw [hcleared, Nat.mul_zero]
      exact Nat.zero_le _
    · have hkept : (p.drainRing requested).1.writesSinceDrain = p.writesSinceDrain := if_neg htook
      rw [hkept, bufferedFrames_eq, drainRing_used, drainRing_stride, Nat.eq_zero_of_not_pos htook, Nat.sub_zero,
        ← bufferedFrames_eq]
      exact h.current

theorem region_fits (h : p.BurstFits quantum limit) (frames : Int) {p₂ : Playback w} (hstock : p₂.stock = p.stock) :
    (p.preparePlaybackWrite frames).2 = {} ∨ (p.preparePlaybackWrite frames).2.Fits p₂ := by
  simp only [stock, Prod.mk.injEq] at hstock
  have hstride : p₂.stride = p.stride := congrArg StreamFormat.frameStride hstock.2.1
  refine (preparePlaybackWrite_region h.used_le frames).imp_right fun ⟨hfits, _⟩ => ?_
  exact ⟨hstock.1 ▸ hfits.cursor, hstride ▸ hfits.stride, hstock.1 ▸ hfits.first, hstock.1 ▸ hfits.firstBytes,
    hfits.secondBytes, hstock.1 ▸ hfits.fit⟩

/-- A commit, of a block or of nothing. -/
theorem commit (h : p.BurstFits quantum limit) (frames : Int) {p₂ : Playback w} (hstock : p₂.stock = p.stock)
    (bytes : List UInt8) :
    let q := (p₂.fillRegion (p.preparePlaybackWrite frames).2 bytes).commitPlaybackWrite (p.preparePlaybackWrite frames).2
    q.ring.used ≤ q.ring.size.bytes ∧ q.writesSinceDrain = p.writesSinceDrain ∧
      q.maxWritesBetweenDrains = p.maxWritesBetweenDrains ∧
      q.bufferedFrames = p.bufferedFrames + (p.preparePlaybackWrite frames).2.frames := by
  intro q
  have hregion := h.region_fits frames hstock
  obtain ⟨hused, hsize⟩ := commit_used hregion bytes
  have hkept : q.writesSinceDrain = p₂.writesSinceDrain ∧ q.maxWritesBetweenDrains = p₂.maxWritesBetweenDrains ∧
      q.format = p₂.format := by
    unfold q commitPlaybackWrite
    split <;> exact ⟨rfl, rfl, rfl⟩
  simp only [stock, Prod.mk.injEq] at hstock
  obtain ⟨hring, hformat, hcurrent, hhigh⟩ := hstock
  have hstride : p₂.stride = p.stride := congrArg StreamFormat.frameStride hformat
  have hstride' : q.stride = p.stride := congrArg StreamFormat.frameStride (hkept.2.2.trans hformat)
  refine ⟨?_, hkept.1.trans hcurrent, hkept.2.1.trans hhigh, ?_⟩
  · rw [hused, hsize, hring, hstride]
    rcases hregion with hnone | hfits
    · rw [hnone, Nat.zero_mul]
      exact h.used_le
    · have hfit := hfits.fit
      rwa [hfits.stride, hring, hstride] at hfit
  · rw [bufferedFrames_eq, bufferedFrames_eq, hstride', hused, hring, hstride]
    rcases Nat.eq_zero_or_pos p.stride with hzero | hpos
    · have hnone : (p.preparePlaybackWrite frames).2 = {} := by
        unfold preparePlaybackWrite
        rw [if_pos (.inr hzero)]
      rw [hnone, hzero, Nat.div_zero, Nat.div_zero]
      rfl
    · exact Nat.add_mul_div_right _ _ hpos

theorem writePcm (h : p.BurstFits quantum limit) (data : List UInt8) (frames : Int) :
    (p.writePcm data frames).1.BurstFits quantum limit := by
  unfold Playback.writePcm
  split
  · exact h
  · obtain ⟨hused, hcurrent, hhigh, hbuffered⟩ := h.commit frames (preparePlaybackWrite_stock frames) data
    refine ⟨hused, ?_, ?_⟩
    · refine Nat.le_trans (Nat.le_of_eq (congrArg _ hcurrent)) (h.current.trans ?_)
      exact (Nat.le_add_right _ _).trans (Nat.le_of_eq hbuffered.symm)
    · exact Nat.le_trans (Nat.le_of_eq (congrArg _ hhigh)) h.high

/-- A publication of at least a quantum, below the limit. -/
theorem submitQuantum (h : p.BurstFits quantum limit) (accepting : Bool) (policy : Nat) {frames : Int}
    (packed : Option (List UInt8)) (charge : Bool) (hquantum : quantum ≤ frames) (hlimit : p.frameLimit ≤ limit) :
    (p.submitQuantum accepting policy frames packed charge).1.BurstFits quantum limit := by
  rcases submitQuantum_stock (p := p) accepting policy frames packed charge with
    ⟨-, hstock⟩ | ⟨-, hpos, hwritable, hwhole, p₂, bytes, hstock, heq⟩
  · exact h.of_stock hstock
  obtain ⟨hused, hcurrent, hhigh, hbuffered⟩ := h.commit frames hstock bytes
  rw [heq]
  generalize (p₂.fillRegion (p.preparePlaybackWrite frames).2 bytes).commitPlaybackWrite _ = q at *
  -- the block fits below the limit, on top of what was there
  have hroom : p.bufferedFrames + (p.preparePlaybackWrite frames).2.frames ≤ p.frameLimit := by
    obtain ⟨-, -, hstride⟩ := preparePlaybackWrite_whole hpos hwritable
    rw [writableFrames, if_neg hstride, admissible] at hwritable
    rw [bufferedFrames_eq]
    split at hwritable <;> omega
  have hold := h.current
  have hburst : quantum * (p.writesSinceDrain + 1) ≤ q.bufferedFrames := by
    rw [Nat.mul_succ]
    omega
  refine ⟨hused, ?_, ?_⟩
  · change quantum * (q.writesSinceDrain + 1) ≤ q.bufferedFrames
    rwa [hcurrent]
  · change quantum * max q.maxWritesBetweenDrains (q.writesSinceDrain + 1) ≤ limit
    rw [hcurrent, hhigh, ← Nat.mul_max_mul_left]
    exact Nat.max_le.2 ⟨h.high, by omega⟩

theorem pumps {events : List PumpEvent} (h : p.BurstFits quantum limit) (hpumps : p.Pumps events q) :
    q.BurstFits quantum limit :=
  hpumps.rule (P := fun p _ => p.BurstFits quantum limit) (fun _ _ _ hside hp => hp.of_stock (stock_of_drainSide hside))
    (fun _ _ requested hp => hp.drain requested) (fun _ _ _ _ hp => hp) [] h

end BurstFits

end Playback

/-- Blocks of at least `quantum` frames, and the limit of admission at most `limit` whenever one is submitted. -/
def Driver.Submits (quantum limit : Nat) (d : Driver w) : DriverAct → Prop
  | .submitQuantum _ _ frames _ _ => quantum ≤ frames ∧ d.pb.frameLimit ≤ limit
  | _ => True

theorem Playback.BurstFits.step {d : Driver w} {quantum limit : Nat} (h : d.pb.BurstFits quantum limit) {a : DriverAct}
    (ha : d.Submits quantum limit a) : (d.step a).pb.BurstFits quantum limit := by
  cases a with
  | outDone i status results ok => exact h.pumps (d.step_pumps rfl)
  | feedbackDone k x ok => exact h.pumps (d.step_pumps rfl)
  | captureDone j x ok => exact h.pumps (d.step_pumps rfl)
  | requestStop => exact h.pumps (d.step_pumps rfl)
  | writePcm data frames => exact h.writePcm data frames
  | submitQuantum accepting policy frames packed charge => exact h.submitQuantum accepting policy packed charge ha.1 ha.2
  | takePlaybackCredit frames => exact h.of_stock (takePlaybackCredit_stock frames)
  | chargePlaybackCredit frames => exact h.of_stock (chargePlaybackCredit_stock frames)
  | _ => exact ⟨h.used_le, h.current, h.high⟩

end UacDriver

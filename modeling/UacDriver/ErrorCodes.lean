import UacDriver.Ownership

/-!
# What the error code says

`lastError` is to tell why the most recent start failed, or `ok`. Each part of a start leaves the code alone where it goes
through and names the failure where it does not, and nothing else writes it: stopping, closing and the event thread do not.
So in every history of calls the code is that of the last call that failed since a generic start went through; a
`startDuplex` of the Line6 profile does not clear it. A `start` that is called directly clears it on any device, and is not
among the calls here.
-/

namespace UacDriver

open Runs

namespace StartError

/-- The codes that a call leaves behind: of the enumeration all but `Ok` and the last two. -/
def Names (code : StartError) : Prop :=
  code = noDevice ∨ code = noMatchingAlt ∨ code = claimInterfaceFailed ∨ code = setAltFailed ∨
    code = setSampleRateFailed ∨ code = isoPumpAllocFailed ∨ code = isoPumpSubmitFailed

instance : DecidablePred Names := fun code => by unfold Names; infer_instance

theorem Names.ne_ok {code : StartError} (h : code.Names) : code ≠ ok := by
  rintro rfl
  revert h
  decide

end StartError

/-- A part of a start that began under the code `before`. -/
structure Reports {w : Nat} (before : StartError) (r : Host w × Bool) : Prop where
  kept : r.2 = true → r.1.lastError = before
  failed : r.2 = false → r.1.lastError.Names

namespace Reports

variable {w : Nat} {before : StartError} {r : Host w × Bool} {h : Host w}

theorem through (hkept : h.lastError = before) : Reports before (h, true) := ⟨fun _ => hkept, fun hno => (by cases hno)⟩

theorem no (hnames : h.lastError.Names) : Reports before (h, false) := ⟨fun hok => (by cases hok), fun _ => hnames⟩

theorem err {code : StartError} (hnames : code.Names) : Reports before (h.err code) := no hnames

/-- A part that begins with another host under the same code. -/
theorem since (hr : Reports h.lastError r) (hsame : h.lastError = before) : Reports before r := by rwa [hsame] at hr

/-- The next part, behind a part that goes through. -/
theorem next {r' : Host w × Bool} (hr : Reports before r) (hthrough : ¬(!r.2) = true) (hr' : Reports r.1.lastError r') :
    Reports before r' := by
  have hkept := hr.kept (by simpa using hthrough)
  rwa [hkept] at hr'

/-- What the call does about a part that has failed. -/
theorem undo (hr : Reports before r) (hfailed : (!r.2) = true) {h' : Host w} (hsame : h'.lastError = r.1.lastError) :
    Reports before (h', false) := by
  refine no ?_
  rw [hsame]
  exact hr.failed (by simpa using hfailed)

end Reports

namespace Host

variable {w : Nat} (h : Host w)

/-! ### What does not write the code -/

@[simp] theorem stopIsoPump_lastError (served : List DriverAct) : (h.stopIsoPump served).1.lastError = h.lastError := by
  unfold stopIsoPump
  dsimp only
  split <;> rfl

@[simp] theorem stopCapturePump_lastError (served : List DriverAct) :
    (h.stopCapturePump served).1.lastError = h.lastError := by
  unfold stopCapturePump
  dsimp only
  split <;> rfl

@[simp] theorem stopPumps_lastError (a : Answers w) (out capture : Place) :
    (h.stopPumps a out capture).1.lastError = h.lastError :=
  (stopCapturePump_lastError _ _).trans (stopIsoPump_lastError h _)

@[simp] theorem releaseStreaming_lastError : h.releaseStreaming.lastError = h.lastError := by
  unfold releaseStreaming
  split <;> rfl

@[simp] theorem releaseControl_lastError : h.releaseControl.lastError = h.lastError := by
  unfold releaseControl
  split <;> rfl

@[simp] theorem releaseCapture_lastError : h.releaseCapture.lastError = h.lastError := by
  unfold releaseCapture
  split <;> rfl

@[simp] theorem stop_lastError (a : Answers w) : (h.stop a).lastError = h.lastError := by
  have hpumps : ((h.withDriver h.drv.requestStop).stopPumps a .stopOut .stopCapture).1.lastError = h.lastError :=
    stopPumps_lastError _ a .stopOut .stopCapture
  unfold stop
  dsimp only
  split
  · rfl
  split
  · show (releaseCapture _).lastError = _
    rw [releaseCapture_lastError, releaseControl_lastError, releaseStreaming_lastError, hpumps]
  · exact hpumps

theorem open_lastError (a : Answers w) (o : OpenAnswers) (fileDescriptor driverCode : Int) :
    (h.open_ a o fileDescriptor driverCode).1.lastError = h.lastError := by
  have hstop := stop_lastError h a
  unfold open_
  dsimp only
  split_ifs <;> first | rfl | exact hstop

theorem close_lastError (a : Answers w) : (h.close a).lastError = h.lastError := by
  have hstop := stop_lastError h a
  unfold close
  dsimp only
  split_ifs <;> exact hstop

theorem claimControl_lastError (a : Answers w) (fmt : StreamFormat) : (h.claimControl a fmt).lastError = h.lastError := by
  unfold claimControl
  dsimp only
  split_ifs <;> rfl

/-! ### The parts of a start -/

theorem reconfigure_reports (a : Answers w) : Reports h.lastError (h.reconfigure a) := by
  have hpumps : (h.deactivateCapture.stopPumps a .reconfigureOut .reconfigureCapture).1.lastError = h.lastError :=
    stopPumps_lastError _ a _ _
  unfold reconfigure
  dsimp only
  split
  · split
    · exact .err (by decide)
    · refine .through ?_
      show (dropCapture _).lastError = _
      unfold dropCapture
      split <;> exact hpumps
  · exact .through rfl

theorem claimStreaming_reports (a : Answers w) (fmt : StreamFormat) : Reports h.lastError (h.claimStreaming a fmt) := by
  unfold claimStreaming
  dsimp only
  split
  · split
    · refine .through ?_
      show (ite _ _ _ : Host w).lastError = _
      split <;> rfl
    · exact .err (by decide)
  · exact .through rfl

theorem startFormat_reports (a : Answers w) (fmt : StreamFormat) : Reports h.lastError (h.startFormat a fmt) := by
  have hclaimed := claimStreaming_reports h a fmt
  unfold startFormat
  dsimp only
  split
  · rename_i hfailed
    exact hclaimed.undo hfailed rfl
  rename_i hthrough
  refine hclaimed.next hthrough ?_
  split
  · exact .err (by decide)
  split
  · exact .err (by decide)
  · exact .through (claimControl_lastError _ a fmt)

/-- A generic `start` clears the code first. -/
theorem start_reports (a : Answers w) (req : StreamRequest) : Reports .ok (h.start a req) := by
  have hreconfigured := reconfigure_reports { h with lastError := .ok } a
  unfold start
  dsimp only
  split
  · exact .err (by decide)
  split
  · exact .err (by decide)
  split
  · rename_i hfailed
    exact hreconfigured.undo hfailed rfl
  rename_i hthrough
  refine hreconfigured.next hthrough ?_
  split
  · exact .err (by decide)
  · exact startFormat_reports _ a _

theorem allocateCaptures_reports (packets : Nat) (a : Answers w) : Reports h.lastError (h.allocateCaptures packets a) := by
  unfold allocateCaptures
  dsimp only
  split
  · exact .err (by decide)
  split
  · exact .through rfl
  · exact .err (by decide)

theorem startCapturePump_reports (a : Answers w) : Reports h.lastError (h.startCapturePump a) := by
  unfold startCapturePump
  dsimp only
  split
  · exact .err (by decide)
  split
  · exact .err (by decide)
  · exact (allocateCaptures_reports _ _ a).since rfl

theorem startCapture_reports (a : Answers w) : Reports h.lastError (h.startCapture a) := by
  unfold startCapture
  split
  · exact .err (by decide)
  split
  · exact .err (by decide)
  split
  · exact .err (by decide)
  dsimp only
  split
  · exact .err (by decide)
  · exact (startCapturePump_reports _ a).since rfl

theorem primeLayout_reports (a : Answers w) : Reports h.lastError (h.primeLayout a) := by
  unfold primeLayout
  dsimp only
  split
  · exact .err (by decide)
  · exact .through rfl

theorem startIsoPump_reports (a : Answers w) : Reports h.lastError (h.startIsoPump a) := by
  unfold startIsoPump
  split
  · exact .through rfl
  · refine .no ?_
    dsimp only
    split <;> decide

theorem startPumps_reports (a : Answers w) : Reports h.lastError (h.startPumps a) := by
  have hcapture := startCapture_reports h a
  unfold startPumps
  dsimp only
  generalize h.startCapture a = r at *
  split
  · rename_i hfailed
    exact hcapture.undo hfailed (stop_lastError ..)
  rename_i hthrough
  refine hcapture.next hthrough ?_
  have hprimed : Reports r.1.lastError (if r.1.drv.implicitMode then r.1.primeLayout a else (r.1, true)) := by
    split
    · exact primeLayout_reports r.1 a
    · exact .through rfl
  generalize (if r.1.drv.implicitMode then r.1.primeLayout a else (r.1, true)) = r' at *
  split
  · rename_i hfailed
    exact hprimed.undo hfailed (stop_lastError ..)
  rename_i hthrough'
  refine hprimed.next hthrough' ?_
  have hprepared := startIsoPump_reports r'.1 a
  split
  · rename_i hfailed
    exact hprepared.undo hfailed (stop_lastError ..)
  · rename_i hthrough''
    exact hprepared.next hthrough'' (.through rfl)

/-! ### The Line6 profile -/

theorem line6Fail_reports (a : Answers w) {before code : StartError} (hnames : code.Names) :
    Reports before (h.line6Fail a code) := by
  refine .no ?_
  show (releaseStreaming _).lastError.Names
  rw [releaseStreaming_lastError, stopPumps_lastError]
  exact hnames

theorem line6Pumps_reports (a : Answers w) (playback capture : StreamFormat) :
    Reports h.lastError (h.line6Pumps a playback capture) := by
  unfold line6Pumps
  dsimp only
  split
  · exact line6Fail_reports _ a (by decide)
  split
  · exact line6Fail_reports _ a (by decide)
  have hcapture := startCapturePump_reports
    { h.withDriver (h.drv.line6Reset playback capture) with eventThread := true } a
  generalize startCapturePump _ a = r at *
  split
  · exact line6Fail_reports _ a (by decide)
  rename_i hthrough
  refine hcapture.next hthrough ?_
  have hprimed := primeLayout_reports r.1 a
  generalize r.1.primeLayout a = r' at *
  split
  · exact line6Fail_reports _ a (by decide)
  rename_i hthrough'
  refine hprimed.next hthrough' ?_
  have hprepared := startIsoPump_reports r'.1 a
  split
  · exact line6Fail_reports _ a (by decide)
  · rename_i hthrough''
    exact hprepared.next hthrough'' (.through rfl)

theorem line6StartDuplex_reports (a : Answers w) : Reports h.lastError (h.line6StartDuplex a) := by
  unfold line6StartDuplex
  split
  · exact .err (by decide)
  split
  · exact line6Fail_reports _ a (by decide)
  rename_i playback capture _
  split
  · exact line6Pumps_reports h a playback capture
  split
  · exact line6Fail_reports _ a (by decide)
  · exact (line6Pumps_reports (h.holdStreaming playback.interfaceNumber) a playback capture).since rfl

/-- The code under which a start begins. -/
def errorBefore : StartError := if h.line6Profile then h.lastError else .ok

theorem startDuplex_reports (a : Answers w) (req : StreamRequest) : Reports h.errorBefore (h.startDuplex a req) := by
  unfold startDuplex errorBefore
  split
  · split
    · exact line6StartDuplex_reports h a
    · exact .err (by decide)
  · have hstarted := start_reports h a req
    dsimp only
    split
    · rename_i hfailed
      exact hstarted.undo hfailed rfl
    · rename_i hthrough
      exact hstarted.next hthrough (startPumps_reports _ a)

/-! ### The start of playback -/

theorem submitIsoPump_lastError (a : PlaybackAnswers w) :
    (h.submitIsoPump a).1.lastError =
      if (h.submitIsoPump a).2 || h.drv.stopRequested then h.lastError else .isoPumpSubmitFailed := by
  unfold submitIsoPump
  cases h.drv.stopRequested with
  | true => rfl
  | false =>
    rw [if_neg Bool.false_ne_true, Bool.or_false]
    split
    · rfl
    dsimp only
    split
    · rfl
    · exact stopIsoPump_lastError _ _

/-- A start of playback is turned away without a code. -/
def turnsPlaybackAway : Bool := h.drv.pb.playbackStarted || h.drv.stopRequested

theorem startPlayback_lastError (a : PlaybackAnswers w) :
    (h.startPlayback a).1.lastError =
      if (h.startPlayback a).2 || h.turnsPlaybackAway then h.lastError else .isoPumpSubmitFailed := by
  have hsubmitted : ((h.setStarted true).submitIsoPump a).1.lastError =
      if ((h.setStarted true).submitIsoPump a).2 || h.drv.stopRequested then h.lastError else .isoPumpSubmitFailed :=
    submitIsoPump_lastError (h.setStarted true) a
  unfold startPlayback turnsPlaybackAway
  cases h.drv.pb.playbackStarted with
  | true => rfl
  | false =>
    rw [if_neg Bool.false_ne_true, Bool.false_or]
    dsimp only
    generalize (h.setStarted true).submitIsoPump a = r at *
    obtain ⟨h₁, submitted⟩ := r
    cases submitted with
    | true => exact hsubmitted
    | false => exact hsubmitted

/-! ### Every history -/

/-- A start that clears the code: a generic one that goes through. -/
def clearsError (h : Host w) : LifecycleAct w → Bool
  | .call (.startDuplex a req) => !h.line6Profile && (h.startDuplex a req).2
  | _ => false

/-- The code of a call that fails with one. -/
def failedWith (h : Host w) : LifecycleAct w → List StartError
  | .call (.startDuplex a req) => if (h.startDuplex a req).2 then [] else [(h.startDuplex a req).1.lastError]
  | .startPlayback a => if (h.startPlayback a).2 || h.turnsPlaybackAway then [] else [.isoPumpSubmitFailed]
  | _ => []

variable {h}

/-- What one call does to the code. -/
theorem live_lastError (act : LifecycleAct w) :
    (h.live act).lastError = if h.clearsError act then .ok else (h.failedWith act).getLastD h.lastError := by
  cases act with
  | startPlayback a =>
    have hkeeps : h.clearsError (.startPlayback a) = false := rfl
    rw [live, startPlayback_lastError, hkeeps, if_neg Bool.false_ne_true, failedWith]
    split <;> rfl
  | call act =>
    cases act with
    | startDuplex a req =>
      have hreports := startDuplex_reports h a req
      rw [live, step, clearsError, failedWith]
      cases hthrough : (h.startDuplex a req).2 with
      | true =>
        rw [hreports.kept hthrough, errorBefore]
        cases h.line6Profile <;> rfl
      | false => simp
    | open_ a o fileDescriptor driverCode => exact open_lastError h a o fileDescriptor driverCode
    | close a => exact close_lastError h a
    | stop a => exact stop_lastError h a
    | configureUserspaceBuffers c =>
      rw [live, step, configureUserspaceBuffers]
      split <;> rfl
    | setUserspaceBufferConfig frames c periodMultiplier => rfl
    | driver a => rfl

theorem failedWith_names {act : LifecycleAct w} {code : StartError} (hcode : code ∈ h.failedWith act) : code.Names := by
  cases act with
  | startPlayback a =>
    rw [failedWith] at hcode
    split at hcode
    · cases hcode
    · rw [List.mem_singleton.1 hcode]
      decide
  | call act =>
    cases act with
    | startDuplex a req =>
      rw [failedWith] at hcode
      split at hcode
      · cases hcode
      · rename_i hfailed
        rw [List.mem_singleton.1 hcode]
        exact (startDuplex_reports h a req).failed (by simpa using hfailed)
    | _ => cases hcode

/-- In every history of `open`, `close`, `startDuplex`, `startPlayback`, `stop` and the calls for buffers and policy, whatever
libusb answers and the event thread does: `lastError` is the code of the last call that failed since a generic start went
through, each such code names one of seven failures, and it is `ok` just where nothing has failed since. A Line6
`startDuplex` that goes through does not clear it, and a start of playback that comes twice or behind a stop request fails
without a code. -/
theorem lastError_exact (z : RingSize w) (as : List (LifecycleAct w)) :
    let h := run live (constructed z) as
    let failed := logSince live clearsError failedWith [] (constructed z) as
    h.lastError = failed.getLastD .ok ∧ (∀ code ∈ failed, code.Names) ∧ (h.lastError = .ok ↔ failed = []) := by
  intro h failed
  obtain ⟨hlast, hnames⟩ : h.lastError = failed.getLastD .ok ∧ ∀ code ∈ failed, code.Names := by
    refine logSince_rule (P := fun (h : Host w) failed => h.lastError = failed.getLastD .ok ∧ ∀ code ∈ failed, code.Names)
      ?_ ?_ ⟨rfl, fun code hcode => (by cases hcode)⟩ as
    · rintro h failed act hclears -
      rw [live_lastError, hclears]
      exact ⟨rfl, fun code hcode => (by cases hcode)⟩
    · rintro h failed act hclears ⟨hlast, hnames⟩
      rw [live_lastError, hclears, if_neg Bool.false_ne_true, hlast]
      refine ⟨?_, fun code hcode => ?_⟩
      · cases hfailed : h.failedWith act with
        | nil => rw [List.append_nil, List.getLastD_nil]
        | cons code codes => simp [List.getLastD_eq_getLast?, List.getLast?_append]
      · rcases List.mem_append.1 hcode with hcode | hcode
        · exact hnames code hcode
        · exact failedWith_names hcode
  refine ⟨hlast, hnames, ?_⟩
  rw [hlast]
  constructor
  · intro hok
    by_contra hsome
    have hmem : failed.getLastD .ok ∈ failed := by
      rw [List.getLastD_eq_getLast?, List.getLast?_eq_some_getLast hsome]
      exact List.getLast_mem hsome
    exact (hnames _ hmem).ne_ok hok
  · intro hnone
    rw [hnone, List.getLastD_nil]

end Host

end UacDriver

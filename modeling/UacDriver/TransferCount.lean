import UacDriver.Host

/-!
# The transfer count and the buffer request

`transferCount_` is stored by two functions: `configureUserspaceBuffers` stores it with the request it comes from,
`open` stores the default alone. No other call and no callback touches either, so that the two agree in every run in
which no `open` meets a request for another count.
-/

namespace UacDriver

open Runs

namespace Driver

variable {w : Nat} {d : Driver w}

/-- The stored count and the request. -/
def request (d : Driver w) : Nat × UserspaceBufferConfig := (d.geometry.transferCount, d.userspaceBufferConfig)

theorem deferTransfer_request (i : Nat) : (d.deferTransfer i).request = d.request := by
  unfold deferTransfer
  split <;> rfl

theorem resubmitOut_request (i : Nat) (implicit ok : Bool) : (d.resubmitOut i implicit ok).request = d.request := by
  cases ok <;> rfl

theorem onIso_request (i : Nat) (ok : Xfer → Bool) : (d.onIso i ok).request = d.request := by
  refine onIso_rule (P := fun d' => d'.request = d.request) (fun _ => rfl) (fun _ _ => rfl) (fun _ _ _ stats => ?_)
    (fun _ _ _ _ => ?_) (fun _ _ => ?_)
  · rw [deferTransfer_request]
    rfl
  · rw [resubmitOut_request]
    rfl
  · rw [resubmitOut_request]
    rfl

theorem noteFeedback_request (x : Transfer) : (d.noteFeedback x).request = d.request := by
  unfold noteFeedback
  split
  · split
    · unfold acceptFeedback
      dsimp only
      split <;> rfl
    · rfl
  · rfl

theorem onFeedback_request (k : Nat) (x : Transfer) (ok : Xfer → Bool) : (d.onFeedback k x ok).request = d.request := by
  refine onFeedback_rule (P := fun d' => d'.request = d.request) rfl rfl (fun _ _ => ?_) fun _ _ => ?_
  · exact noteFeedback_request x
  · exact noteFeedback_request x

theorem submitPendingImplicitTransfers_request (ok : Xfer → Bool) :
    (d.submitPendingImplicitTransfers ok).request = d.request := by
  show (submitPending ok d.pending d).1.request = d.request
  exact submitPending_rule ok (P := fun d' _ => d'.request = d.request) (Q := fun d' _ => d'.request = d.request)
    (fun _ h => h) (fun _ _ _ _ h _ => h) (fun _ _ _ h _ _ => h) (fun _ _ _ h _ _ => h) d d.pending rfl

theorem onCapture_request (j : Nat) (x : Transfer) (ok : Xfer → Bool) : (d.onCapture j x ok).request = d.request := by
  have hreceived : ((d.receiveCapture x).submitPendingImplicitTransfers ok).request = d.request :=
    submitPendingImplicitTransfers_request (d := d.receiveCapture x) ok
  generalize hd : (d.receiveCapture x).submitPendingImplicitTransfers ok = d' at hreceived
  refine onCapture_rule (P := fun d' => d'.request = d.request) (fun _ => rfl) (fun _ => rfl) (fun _ => ?_) (fun _ _ => ?_)
    fun _ _ => ?_
  · rw [hd]
    exact hreceived
  · rw [hd]
    exact hreceived
  · rw [hd]
    exact hreceived

/-- No callback and no call of a client touches the request. -/
theorem step_request (d : Driver w) (a : DriverAct) : (d.step a).request = d.request := by
  cases a with
  | outDone i status results ok =>
    simp only [step]
    split
    · exact onIso_request i ok
    · rfl
  | feedbackDone k x ok =>
    simp only [step]
    split
    · exact onFeedback_request k x ok
    · rfl
  | captureDone j x ok =>
    simp only [step]
    split
    · exact onCapture_request j x ok
    · rfl
  | _ => rfl

theorem run_request (as : List DriverAct) : (run step d as).request = d.request :=
  run_invariant (I := fun d' : Driver w => d'.request = d.request) (fun d' a h => (step_request d' a).trans h) rfl as

theorem submitCaptures_request (lengths : List Nat) (a : Answers w) (js : List Nat) (d : Driver w) :
    (submitCaptures lengths a js d).1.request = d.request := by
  induction js generalizing d with
  | nil => rfl
  | cons j js ih =>
    rw [submitCaptures]
    dsimp only
    split
    · exact (ih _).trans (run_request _)
    · exact run_request (d := d) _

theorem abandonIsoPump_request (maxPacket : Int) (alloc : Bool) (allocated : Nat) :
    (d.abandonIsoPump maxPacket alloc allocated).request = d.request := by
  rcases d.abandonIsoPump_cases maxPacket alloc allocated with ⟨_, _, he, hcount⟩ | ⟨_, _, _, _, _, he, hcount⟩
  all_goals
    rw [he]
    exact congrArg (Prod.mk · d.userspaceBufferConfig) hcount

theorem startIsoPump_request {maxPacket : Int} {alloc : Bool} {d' : Driver w} (h : d.startIsoPump maxPacket alloc = some d') :
    d'.request = d.request ∧ d'.outCount = d.geometry.transferCount := by
  unfold startIsoPump at h
  dsimp only at h
  obtain ⟨-, hplan⟩ := Option.ite_none_left_eq_some.1 h
  obtain ⟨⟨plan, fifo⟩, -, rfl⟩ := Option.map_eq_some_iff.1 hplan
  exact ⟨rfl, rfl⟩

end Driver

/-! ### The calls of the control thread -/

namespace Host

variable {w : Nat} (h : Host w) (a : Answers w)

theorem stopIsoPump_request (served : List DriverAct) : (h.stopIsoPump served).1.drv.request = h.drv.request := by
  have hserved : (run Driver.step { h.drv with stopRequested := true } served).request = h.drv.request :=
    Driver.run_request served
  unfold stopIsoPump Driver.stopIsoPump
  dsimp only
  split_ifs <;> exact hserved

theorem stopCapturePump_request (served : List DriverAct) : (h.stopCapturePump served).1.drv.request = h.drv.request := by
  have hserved : (run Driver.step h.drv served).request = h.drv.request := Driver.run_request served
  unfold stopCapturePump Driver.stopCapturePump
  dsimp only
  split_ifs <;> exact hserved

theorem stopPumps_request (out capture : Place) : (h.stopPumps a out capture).1.drv.request = h.drv.request :=
  (stopCapturePump_request _ _).trans (stopIsoPump_request h _)

@[simp] theorem releaseStreaming_drv : h.releaseStreaming.drv = h.drv := by
  unfold releaseStreaming
  split <;> rfl

@[simp] theorem releaseControl_drv : h.releaseControl.drv = h.drv := by
  unfold releaseControl
  split <;> rfl

@[simp] theorem releaseCapture_drv : h.releaseCapture.drv = h.drv := by
  unfold releaseCapture
  split <;> rfl

@[simp] theorem dropCapture_drv : h.dropCapture.drv = h.drv := by
  unfold dropCapture
  split <;> rfl

theorem stop_request : (h.stop a).drv.request = h.drv.request := by
  have hpumps := stopPumps_request (h.withDriver h.drv.requestStop) a .stopOut .stopCapture
  unfold stop
  dsimp only
  generalize (h.withDriver h.drv.requestStop).stopPumps a .stopOut .stopCapture = r at *
  split
  · rfl
  split
  · show r.1.releaseStreaming.releaseControl.releaseCapture.drv.stopReset.request = _
    rw [releaseCapture_drv, releaseControl_drv, releaseStreaming_drv]
    exact hpumps
  · exact hpumps

theorem reconfigure_request : (h.reconfigure a).1.drv.request = h.drv.request := by
  have hpumps := stopPumps_request h.deactivateCapture a .reconfigureOut .reconfigureCapture
  unfold reconfigure
  dsimp only
  generalize h.deactivateCapture.stopPumps a .reconfigureOut .reconfigureCapture = r at *
  split
  · split <;> exact hpumps
  · rfl

theorem claimStreaming_drv (fmt : StreamFormat) : (h.claimStreaming a fmt).1.drv = h.drv := by
  unfold claimStreaming
  split
  · dsimp only
    split_ifs <;> rfl
  · rfl

theorem claimControl_drv (fmt : StreamFormat) : (h.claimControl a fmt).drv = h.drv := by
  unfold claimControl
  split
  · dsimp only
    split_ifs <;> rfl
  · rfl

theorem startFormat_request (fmt : StreamFormat) : (h.startFormat a fmt).1.drv.request = h.drv.request := by
  have hclaims : ((h.claimStreaming a fmt).1.claimControl a fmt).drv.request = h.drv.request := by
    rw [claimControl_drv, claimStreaming_drv]
  unfold startFormat
  dsimp only
  split
  · rw [claimStreaming_drv]
  split_ifs <;> exact hclaims

theorem start_request (req : StreamRequest) : (h.start a req).1.drv.request = h.drv.request := by
  unfold start
  dsimp only
  split
  · rfl
  split
  · rfl
  have hreconfigured := reconfigure_request { h with lastError := .ok } a
  split
  · exact hreconfigured
  split
  · exact hreconfigured
  · exact (startFormat_request _ a _).trans hreconfigured

theorem allocateCaptures_request (packets : Nat) : (h.allocateCaptures packets a).1.drv.request = h.drv.request := by
  unfold allocateCaptures
  dsimp only
  split
  · exact stopCapturePump_request _ _
  split
  · exact Driver.submitCaptures_request _ a _ _
  · exact (stopCapturePump_request _ _).trans (Driver.submitCaptures_request _ a _ _)

theorem startCapturePump_request : (h.startCapturePump a).1.drv.request = h.drv.request := by
  unfold startCapturePump
  dsimp only
  split
  · rfl
  split
  · rfl
  · exact allocateCaptures_request _ a _

theorem startCapture_request : (h.startCapture a).1.drv.request = h.drv.request := by
  unfold startCapture
  split
  · rfl
  dsimp only
  split
  · rfl
  split
  · rfl
  split
  · rfl
  · exact startCapturePump_request _ a

theorem primeLayout_request : (h.primeLayout a).1.drv.request = h.drv.request := by
  have hwaited : (run Driver.step (h.drv.step .registerCapture)
      (a.others .priming (h.drv.step .registerCapture))).request = h.drv.request := Driver.run_request _
  unfold primeLayout
  dsimp only
  split <;> exact hwaited

theorem startIsoPump_request : (h.startIsoPump a).1.drv.request = h.drv.request := by
  unfold startIsoPump
  split
  · rename_i d hd
    exact (Driver.startIsoPump_request hd).1
  · exact Driver.abandonIsoPump_request ..

theorem line6Fail_request (code : StartError) : (h.line6Fail a code).1.drv.request = h.drv.request := by
  have hpumps := stopPumps_request { h.deactivateCapture with lastError := code } a .stopOut .stopCapture
  unfold line6Fail
  dsimp only
  generalize stopPumps _ a .stopOut .stopCapture = r at *
  show r.1.releaseStreaming.drv.request = _
  rw [releaseStreaming_drv]
  exact hpumps

/-- A pump that was prepared has the count that was stored. -/
theorem startIsoPump_outCount (hok : (h.startIsoPump a).2 = true) :
    (h.startIsoPump a).1.drv.outCount = h.drv.geometry.transferCount := by
  unfold startIsoPump at hok ⊢
  split at hok
  · rename_i d hd
    exact (Driver.startIsoPump_request hd).2
  · cases hok

/-- The end of both starts: the output pump, then a failure or the flag. -/
theorem line6Pumps_request (playback capture : StreamFormat) :
    (h.line6Pumps a playback capture).1.drv.request = h.drv.request ∧
    ((h.line6Pumps a playback capture).2 = true →
      (h.line6Pumps a playback capture).1.drv.outCount = h.drv.geometry.transferCount) := by
  unfold line6Pumps
  dsimp only
  split
  · exact ⟨line6Fail_request _ a _, nofun⟩
  split
  · exact ⟨line6Fail_request _ a _, nofun⟩
  have h₁ : (startCapturePump { h.withDriver (h.drv.line6Reset playback capture) with eventThread := true } a).1.drv.request =
      h.drv.request := startCapturePump_request _ a
  generalize startCapturePump { h.withDriver (h.drv.line6Reset playback capture) with eventThread := true } a = r₁ at *
  split
  · exact ⟨(line6Fail_request _ a _).trans h₁, nofun⟩
  have h₂ := (primeLayout_request r₁.1 a).trans h₁
  generalize r₁.1.primeLayout a = r₂ at *
  split
  · exact ⟨(line6Fail_request _ a _).trans h₂, nofun⟩
  have h₃ := (startIsoPump_request r₂.1 a).trans h₂
  have hcount := startIsoPump_outCount r₂.1 a
  generalize r₂.1.startIsoPump a = r₃ at *
  split
  · exact ⟨(line6Fail_request _ a _).trans h₃, nofun⟩
  · rename_i hprepared
    refine ⟨h₃, fun _ => (hcount (by simpa using hprepared)).trans ?_⟩
    exact congrArg Prod.fst h₂

theorem line6StartDuplex_request :
    (h.line6StartDuplex a).1.drv.request = h.drv.request ∧
    ((h.line6StartDuplex a).2 = true → (h.line6StartDuplex a).1.drv.outCount = h.drv.geometry.transferCount) := by
  unfold line6StartDuplex
  split
  · exact ⟨rfl, nofun⟩
  split
  · exact ⟨line6Fail_request _ a _, nofun⟩
  split
  · exact line6Pumps_request h a _ _
  split
  · exact ⟨line6Fail_request _ a _, nofun⟩
  · exact line6Pumps_request _ a _ _

theorem startPumps_request :
    (h.startPumps a).1.drv.request = h.drv.request ∧
    ((h.startPumps a).2 = true → (h.startPumps a).1.drv.outCount = h.drv.geometry.transferCount) := by
  unfold startPumps
  dsimp only
  have h₁ := startCapture_request h a
  generalize h.startCapture a = r₁ at *
  split
  · exact ⟨(stop_request _ a).trans h₁, nofun⟩
  have h₂ : (if r₁.1.drv.implicitMode then r₁.1.primeLayout a else (r₁.1, true)).1.drv.request = h.drv.request := by
    split
    · exact (primeLayout_request r₁.1 a).trans h₁
    · exact h₁
  generalize (if r₁.1.drv.implicitMode then r₁.1.primeLayout a else (r₁.1, true)) = r₂ at *
  split
  · exact ⟨(stop_request _ a).trans h₂, nofun⟩
  have h₃ := (startIsoPump_request r₂.1 a).trans h₂
  have hcount := startIsoPump_outCount r₂.1 a
  generalize r₂.1.startIsoPump a = r₃ at *
  split
  · exact ⟨(stop_request _ a).trans h₃, nofun⟩
  · rename_i hprepared
    refine ⟨h₃, fun _ => (hcount (by simpa using hprepared)).trans ?_⟩
    exact congrArg Prod.fst h₂

theorem startDuplex_request (req : StreamRequest) :
    (h.startDuplex a req).1.drv.request = h.drv.request ∧
    ((h.startDuplex a req).2 = true → (h.startDuplex a req).1.drv.outCount = h.drv.geometry.transferCount) := by
  unfold startDuplex
  split
  · split
    · exact line6StartDuplex_request h a
    · exact ⟨rfl, nofun⟩
  have h₁ := start_request h a req
  dsimp only
  generalize h.start a req = r₁ at *
  split
  · exact ⟨h₁, nofun⟩
  · obtain ⟨h₂, hcount⟩ := startPumps_request r₁.1 a
    exact ⟨h₂.trans h₁, fun hok => (hcount hok).trans (congrArg Prod.fst h₁)⟩

/-! ### Runs of calls -/

end Host

inductive HostAct (w : Nat) where
  | open_ (a : Answers w) (o : OpenAnswers) (fileDescriptor driverCode : Int)
  | close (a : Answers w)
  | configureUserspaceBuffers (c : UserspaceBufferConfig)
  | setUserspaceBufferConfig (frames : Int) (c : UserspaceBufferConfig) (periodMultiplier : Int)
  | startDuplex (a : Answers w) (req : StreamRequest)
  | stop (a : Answers w)
  /-- What the event thread and the clients do between the calls. -/
  | driver (a : DriverAct)

namespace Host

variable {w : Nat}

def step (h : Host w) : HostAct w → Host w
  | .open_ a o fileDescriptor driverCode => (h.open_ a o fileDescriptor driverCode).1
  | .close a => h.close a
  | .configureUserspaceBuffers c => (h.configureUserspaceBuffers c).1
  | .setUserspaceBufferConfig frames c periodMultiplier => h.setUserspaceBufferConfig frames c periodMultiplier
  | .startDuplex a req => (h.startDuplex a req).1
  | .stop a => h.stop a
  | .driver a => h.withDriver (h.drv.step a)

/-- The driver as constructed, with no device. -/
def constructed (z : RingSize w) : Host w := { toStartup := .constructed z }

/-- The count in force is the one of the request, or the default if it names none. -/
def CountRequested (h : Host w) : Prop :=
  h.drv.geometry.transferCount = h.drv.userspaceBufferConfig.resolvedTransferCount

/-- The call gets past its checks and opens a device. -/
def opens (h : Host w) (a : Answers w) (o : OpenAnswers) (fileDescriptor driverCode : Int) : Bool :=
  let stopped := h.stop a
  o.context && !stopped.transfersLive &&
    !(stopped.device && stopped.fd == fileDescriptor && stopped.driverCode == driverCode) && o.handle &&
    (driverCode == 0 || driverCode == 1 && isLine6 o.identity)

/-- A device is opened only while the request, if it names a count, names the default. -/
def KeepsRequest (h : Host w) : HostAct w → Prop
  | .open_ a o fileDescriptor driverCode =>
    h.opens a o fileDescriptor driverCode = true →
      h.drv.userspaceBufferConfig.resolvedTransferCount = kDefaultNumTransfers
  | _ => True

variable {h : Host w}

theorem CountRequested.congr {h' : Host w} (hc : h.CountRequested) (he : h'.drv.request = h.drv.request) :
    h'.CountRequested := by
  obtain ⟨hcount, hconfig⟩ := Prod.mk.injEq .. ▸ he
  rw [CountRequested, hcount, hconfig]
  exact hc

/-- An `open` leaves the request, and the count too unless it opens a device, which stores the default. -/
theorem open_request (h : Host w) (a : Answers w) (o : OpenAnswers) (fileDescriptor driverCode : Int) :
    (h.opens a o fileDescriptor driverCode = true ∧
      (h.open_ a o fileDescriptor driverCode).1.drv.request = (kDefaultNumTransfers, h.drv.userspaceBufferConfig)) ∨
    (h.opens a o fileDescriptor driverCode = false ∧ (h.open_ a o fileDescriptor driverCode).1.drv.request = h.drv.request) := by
  have hstop := stop_request h a
  have hclosed : (if (h.stop a).device then (h.stop a).closeDevice else h.stop a).drv.request = h.drv.request := by
    split <;> exact hstop
  simp only [open_, opens]
  generalize (if (h.stop a).device then (h.stop a).closeDevice else h.stop a) = q at *
  generalize h.stop a = r at *
  by_cases hcontext : (!o.context) = true
  · rw [if_pos hcontext]
    exact .inr ⟨by simp_all, rfl⟩
  rw [if_neg hcontext]
  by_cases hlive : r.transfersLive = true
  · rw [if_pos hlive]
    exact .inr ⟨by simp [hlive], hstop⟩
  rw [if_neg hlive]
  by_cases hsame : r.device = true ∧ r.fd = fileDescriptor ∧ r.driverCode = driverCode
  · rw [if_pos hsame]
    exact .inr ⟨by simp [hsame], hstop⟩
  rw [if_neg hsame]
  by_cases hhandle : (!o.handle) = true
  · rw [if_pos hhandle]
    exact .inr ⟨by simp_all, hclosed⟩
  rw [if_neg hhandle]
  by_cases hcode : driverCode ≠ 0 ∧ driverCode ≠ 1
  · rw [if_pos hcode]
    exact .inr ⟨by simp [hcode], hclosed⟩
  rw [if_neg hcode]
  by_cases hid : decide (driverCode = 1) = true ∧ (!isLine6 o.identity) = true
  · rw [if_pos hid]
    exact .inr ⟨by simp_all, hclosed⟩
  · rw [if_neg hid]
    refine .inl ⟨?_, congrArg (Prod.mk _) (congrArg Prod.snd hclosed)⟩
    have hprofile : driverCode = 0 ∨ driverCode = 1 ∧ isLine6 o.identity = true := by
      by_cases hzero : driverCode = 0
      · exact .inl hzero
      · have hone : driverCode = 1 := by_contra fun hne => hcode ⟨hzero, hne⟩
        refine .inr ⟨hone, ?_⟩
        by_contra hno
        exact hid ⟨by simp [hone], by simpa using hno⟩
    simp only [Bool.and_eq_true, Bool.or_eq_true, beq_iff_eq, Bool.not_eq_true']
    refine ⟨⟨⟨⟨by simpa using hcontext, by simpa using hlive⟩, ?_⟩, by simpa using hhandle⟩, hprofile⟩
    rw [← Bool.not_eq_true]
    simpa [and_assoc] using hsame

/-- Every call but an `open` keeps the agreement; an `open` keeps it exactly if it meets the condition. -/
theorem CountRequested.step (hc : h.CountRequested) (act : HostAct w) :
    (h.step act).CountRequested ↔ h.KeepsRequest act := by
  cases act with
  | open_ a o fileDescriptor driverCode =>
    rcases open_request h a o fileDescriptor driverCode with ⟨hopens, he⟩ | ⟨hopens, he⟩
    · obtain ⟨hcount, hconfig⟩ := Prod.mk.injEq .. ▸ he
      show ((h.open_ a o fileDescriptor driverCode).1.drv.geometry.transferCount =
        (h.open_ a o fileDescriptor driverCode).1.drv.userspaceBufferConfig.resolvedTransferCount) ↔ _
      rw [hcount, hconfig]
      exact ⟨fun heq _ => heq.symm, fun hkeeps => (hkeeps hopens).symm⟩
    · exact iff_of_true (hc.congr he) fun hopens' => absurd hopens' (by rw [hopens]; decide)
  | close a =>
    refine iff_of_true (hc.congr ?_) trivial
    have hstop := stop_request h a
    show (h.close a).drv.request = _
    unfold close
    dsimp only
    split_ifs <;> exact hstop
  | configureUserspaceBuffers c =>
    refine iff_of_true ?_ trivial
    show (h.configureUserspaceBuffers c).1.CountRequested
    unfold configureUserspaceBuffers
    split
    · rename_i d hd
      obtain ⟨pb, -, rfl⟩ := Option.map_eq_some_iff.1 hd
      rfl
    · exact hc
  | setUserspaceBufferConfig frames c periodMultiplier =>
    refine iff_of_true (hc.congr ?_) trivial
    show (h.toStartup.setUserspaceBufferConfig frames c periodMultiplier).drv.request = _
    unfold Startup.setUserspaceBufferConfig
    split <;> rfl
  | startDuplex a req => exact iff_of_true (hc.congr (startDuplex_request h a req).1) trivial
  | stop a => exact iff_of_true (hc.congr (stop_request h a)) trivial
  | driver a => exact iff_of_true (hc.congr (Driver.step_request h.drv a)) trivial

/-- Over every sequence of calls, successful or not: in every state the count is the requested one if and only if no
device is opened under a request for another count than the default. A pump that is then started has that many
transfers. -/
theorem transferCount_requested_iff (z : RingSize w) (as : List (HostAct w)) :
    (∀ pre post, as = pre ++ post →
      let h := run step (constructed z) pre
      h.CountRequested ∧ ∀ a req, (h.startDuplex a req).2 = true →
        (h.startDuplex a req).1.drv.outCount = h.drv.userspaceBufferConfig.resolvedTransferCount) ↔
    Meets step KeepsRequest (constructed z) as := by
  have hinit : (constructed z).CountRequested := rfl
  generalize constructed z = s at *
  constructor
  · intro hall
    induction as generalizing s with
    | nil => trivial
    | cons act as ih =>
      have hfirst := (hall [act] as rfl).1
      refine ⟨(hinit.step act).1 hfirst, ih (s.step act) hfirst fun pre post he => ?_⟩
      exact hall (act :: pre) post (by rw [he]; rfl)
  · rintro hmeets pre post rfl
    have hcount := hmeets.left.invariant (I := CountRequested) (fun _ act hkeeps hc => (hc.step act).2 hkeeps) hinit
    refine ⟨hcount, fun a req hok => ?_⟩
    rw [(startDuplex_request _ a req).2 hok]
    exact hcount

/-- A request for eight transfers is accepted, then the device is opened: the request is still stored, the count is the
default of four. -/
theorem transferCount_lost :
    ∃ z : RingSize 64,
      let h₁ := run step (constructed z) [.configureUserspaceBuffers { transferCount := 8 }]
      let h₂ := run step (constructed z) [.configureUserspaceBuffers { transferCount := 8 }, .open_ {} {} 5 0]
      ((constructed z).configureUserspaceBuffers { transferCount := 8 }).2 = true ∧ h₁.drv.geometry.transferCount = 8 ∧
      (h₁.open_ {} {} 5 0).2 = true ∧ h₂.drv.userspaceBufferConfig.transferCount = 8 ∧
      h₂.drv.geometry.transferCount = 4 ∧ ¬h₂.CountRequested :=
  ⟨defaultRing, by decide, by decide, by decide, by decide, by decide, by unfold CountRequested; decide⟩

end Host

end UacDriver

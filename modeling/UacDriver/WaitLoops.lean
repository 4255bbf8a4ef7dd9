import UacDriver.WakeRace

/-!
# The five waits of the driver

Each wait registers on its channel and loops: leave when a test holds or the deadline has passed, else `poll`
and go round again. Three of them drain the eventfd after `poll`. `waitForWritableFramesUntil` and
`waitForPlaybackCreditUntil` do not: the counter stays set, every later `poll` of the call returns at once,
and the loop spins until its test holds or the deadline passes.

With the drain every readable `poll` uses up a write of its own, or the one wake that was pending at the call.
-/

namespace UacDriver

open Runs

namespace Playback

variable {w : Nat} (p : Playback w)

def writableToTargetFrames : Nat :=
  if p.stride = 0 then 0
  else
    let queued := p.ring.used / p.stride
    -- room against the target, not against the admission ceiling
    let target := if p.playbackStarted then p.playbackTargetFrames else p.startupPrimeFrames
    if target = 0 then p.writableFrames
    else
      let logicalFree := if queued < target then target - queued else 0
      let physicalFree := (p.ring.size.bytes - p.ring.used) / p.stride
      min physicalFree logicalFree

end Playback

namespace Driver

variable {w : Nat}

/-- The two capture waits differ in how they compute the timeout of `poll` only. -/
def captureWait (frames : Int) : Option (Wait (Driver w)) :=
  if frames ≤ 0 then none
  else some {
    exits := [fun d => decide (frames ≤ d.captureAvailableFrames), fun d => !d.streaming]
    drains := true
    result := fun d => decide (frames ≤ d.captureAvailableFrames) }

def waitForCaptureFrames (frames : Int) : Option (Wait (Driver w)) := captureWait frames

def waitForCaptureFramesUntil (frames : Int) : Option (Wait (Driver w)) := captureWait frames

def waitForWritableFrames (frames : Int) : Option (Wait (Driver w)) :=
  if frames ≤ 0 then none
  else some {
    exits := [fun d => decide (frames ≤ d.pb.writableFrames), fun d => !d.streaming, fun d => d.transportFailed]
    drains := true
    result := fun d => decide (frames ≤ d.pb.writableFrames) }

def waitForWritableFramesUntil (frames : Int) : Option (Wait (Driver w)) :=
  if frames ≤ 0 then none
  else some {
    exits :=
      [fun d => decide (frames ≤ d.pb.writableToTargetFrames), fun d => !d.streaming, fun d => d.transportFailed]
    drains := false
    -- falls back to the ceiling on expiry
    result := fun d => decide (frames ≤ d.pb.writableFrames) }

/-- The floor of the ledger is computed from the state at the call, before the registration. -/
def waitForPlaybackCreditUntil (d : Driver w) (frames : Int) : Option (Wait (Driver w)) :=
  if frames ≤ 0 ∨ d.pb.playbackStarted = false then none
  else
    let floor : Int := -d.pb.playbackTargetFrames - d.pb.queuedOutFrames - d.pb.playbackCreditReserve
    some {
      exits :=
        [fun d => decide (floor ≤ d.pb.playbackCredit - frames), fun d => !d.streaming, fun d => d.transportFailed]
      drains := false
      result := fun d => decide (floor ≤ d.pb.playbackCredit - frames) }

end Driver

inductive WaitFn where
  | captureFrames
  | captureFramesUntil
  | writableFrames
  | writableFramesUntil
  | playbackCreditUntil
  deriving DecidableEq

namespace WaitFn

variable {w : Nat}

/-- The wait that a call in state `d` makes; `none` when it returns before it registers. -/
def wait : WaitFn → Driver w → Int → Option (Wait (Driver w))
  | .captureFrames, _, frames => Driver.waitForCaptureFrames frames
  | .captureFramesUntil, _, frames => Driver.waitForCaptureFramesUntil frames
  | .writableFrames, _, frames => Driver.waitForWritableFrames frames
  | .writableFramesUntil, _, frames => Driver.waitForWritableFramesUntil frames
  | .playbackCreditUntil, d, frames => d.waitForPlaybackCreditUntil frames

def drains : WaitFn → Bool
  | .writableFramesUntil => false
  | .playbackCreditUntil => false
  | _ => true

/-- A call in state `d` gets as far as `poll`. -/
def blocks (f : WaitFn) (d : Driver w) (frames : Int) : Bool := (f.wait d frames).any fun wait => !wait.met d

theorem wait_drains {f : WaitFn} {d : Driver w} {frames : Int} {wait : Wait (Driver w)}
    (h : f.wait d frames = some wait) : wait.drains = f.drains := by
  cases f <;>
    simp only [WaitFn.wait, Driver.waitForCaptureFrames, Driver.waitForCaptureFramesUntil, Driver.captureWait,
      Driver.waitForWritableFrames, Driver.waitForWritableFramesUntil, Driver.waitForPlaybackCreditUntil] at h <;>
    split at h <;> cases h <;> rfl

end WaitFn

namespace WakeRace

variable {σ : Type} {s : WakeRace σ}

/-! ### A draining wait -/

def waitOf : WaiterPc σ → Option (Wait σ)
  | .check wait _ => some wait
  | .poll wait => some wait
  | .drain wait => some wait
  | _ => none

/-- A readable `poll` that the eventfd has still to pay for; after `poll` the drain settles it. -/
def due (s : WakeRace σ) : Nat :=
  match s.waiter with
  | .drain _ => 0
  | _ => if 0 < s.fd.count then 1 else 0

theorem due_le (s : WakeRace σ) : s.due ≤ 1 := by
  unfold due
  split
  · omega
  · split <;> omega

structure Budget (s : WakeRace σ) : Prop where
  drains : ∀ wait, waitOf s.waiter = some wait → wait.drains = true
  polled : s.polled + s.due ≤ s.writes + 1

namespace Budget

/-- A step of the waiter that neither polls nor drains. -/
theorem move (h : s.Budget) (waiter : WaiterPc σ) (hwait : ∀ wait, waitOf waiter = some wait → waitOf s.waiter = some wait)
    (hpc : ∀ wait, s.waiter ≠ .drain wait) {s' : WakeRace σ} (hwaiter : s'.waiter = waiter) (hfd : s'.fd = s.fd)
    (hpolled : s'.polled = s.polled) (hwrites : s'.writes = s.writes) : s'.Budget := by
  refine ⟨fun wait hw => h.drains wait (hwait wait (by rw [← hwaiter]; exact hw)), ?_⟩
  have hle : s'.due ≤ s.due := by
    have hs : s.due = if 0 < s.fd.count then 1 else 0 := by
      unfold due
      split
      · rename_i wait hd
        exact absurd hd (hpc wait)
      · rfl
    rw [hs]
    unfold due
    rw [hfd]
    split
    · omega
    · rfl
  have := h.polled
  rw [hpolled, hwrites]
  omega

theorem produce (h : s.Budget) (p : Nat) : (s.produceStep p).Budget := by
  simp only [produceStep]
  split
  · exact h
  · exact ⟨h.drains, h.polled⟩
  · refine ⟨h.drains, ?_⟩
    have hp := h.polled
    by_cases hv : s.fd.valid = true
    · have hdue := due_le { s with
        fd := s.fd.write, writes := if s.fd.valid then s.writes + 1 else s.writes
        producers := Function.update s.producers p .idle }
      simp only [hv, if_true] at hdue ⊢
      omega
    · simp only [hv, Eventfd.write_of_invalid hv]
      exact hp

theorem wait (h : s.Budget) : s.waitStep.Budget := by
  have hp := h.polled
  simp only [waitStep]
  split
  · exact h
  · rename_i wait n hpc
    have hmine : waitOf s.waiter = some wait := by rw [hpc]; rfl
    have hnot : ∀ wait, s.waiter ≠ .drain wait := fun _ he => by rw [hpc] at he; cases he
    split
    · exact h.move (.poll wait) (fun _ hw => hmine.trans hw) hnot rfl rfl rfl rfl
    · rename_i c hc
      by_cases ht : c s.published = true
      · simp only [ht, if_true]
        exact h.move (.last wait) (fun _ hw => by cases hw) hnot rfl rfl rfl rfl
      · simp only [ht, Bool.false_eq_true, if_false]
        exact h.move (.check wait (n + 1)) (fun _ hw => hmine.trans hw) hnot rfl rfl rfl rfl
  · rename_i wait hpc
    have hmine : waitOf s.waiter = some wait := by rw [hpc]; rfl
    have hd := h.drains wait hmine
    split
    · -- the readable `poll` takes what was due
      rename_i hr
      have hcount : 0 < s.fd.count := by
        simp only [Eventfd.readable, Bool.and_eq_true, decide_eq_true_eq] at hr
        exact hr.2
      have hdue : s.due = 1 := by simp [due, hpc, hcount]
      refine ⟨fun _ hw => h.drains _ (hmine.trans hw), ?_⟩
      show s.polled + 1 + 0 ≤ s.writes + 1
      omega
    · exact h
  · rename_i wait hpc
    refine ⟨fun _ hw => h.drains _ (by rw [hpc]; exact hw), ?_⟩
    show s.polled + 0 ≤ s.writes + 1
    omega
  · rename_i wait hpc
    exact h.move (.leave _) (fun _ hw => by cases hw) (fun _ he => by rw [hpc] at he; cases he) rfl rfl rfl rfl
  · rename_i r hpc
    exact h.move .out (fun _ hw => by cases hw) (fun _ he => by rw [hpc] at he; cases he) rfl rfl rfl rfl

theorem step (h : s.Budget) {a : WakeAct σ} (ha : a.isCall = false) : (s.step a).Budget := by
  cases a with
  | publish p change terminal =>
    simp only [WakeRace.step]
    split
    · exact ⟨h.drains, h.polled⟩
    · exact h
  | produce p => exact h.produce p
  | consume change =>
    simp only [WakeRace.step]
    split
    · exact ⟨h.drains, h.polled⟩
    · exact h
  | call wait => cases ha
  | wait => exact h.wait
  | giveUp =>
    simp only [WakeRace.step]
    split
    · rename_i wait hpc
      exact h.move (.last wait) (fun _ hw => by cases hw) (fun _ he => by rw [hpc] at he; cases he) rfl rfl rfl rfl
    · exact h

end Budget

/-! ### A channel that is not written -/

/-- While nothing has been written to the eventfd, or there is none, `poll` has not returned readable. -/
def Dry (s : WakeRace σ) : Prop := s.fd.valid = false ∨ s.writes = 0 → s.polled = 0 ∧ s.fd.readable = false

theorem Dry.congr (h : s.Dry) {s' : WakeRace σ} (hfd : s'.fd = s.fd) (hpolled : s'.polled = s.polled)
    (hwrites : s'.writes = s.writes) : s'.Dry := by
  simp only [Dry, hfd, hpolled, hwrites]
  exact h

theorem Dry.step (h : s.Dry) {a : WakeAct σ} (ha : a.isCall = false) : (s.step a).Dry := by
  cases a with
  | publish p change terminal =>
    simp only [WakeRace.step]
    split <;> exact h
  | produce p =>
    simp only [WakeRace.step, produceStep]
    split
    · exact h
    · exact h
    · by_cases hv : s.fd.valid = true
      · intro hdry
        rcases hdry with hinvalid | hw
        · exact absurd hv (by simpa [Eventfd.write] using hinvalid)
        · simp [hv] at hw
      · exact h.congr (Eventfd.write_of_invalid hv) rfl (by simp [hv])
  | consume change =>
    simp only [WakeRace.step]
    split <;> exact h
  | call wait => cases ha
  | wait =>
    simp only [WakeRace.step, waitStep]
    split
    · exact h
    · split <;> exact h
    · split
      · rename_i hr
        intro hdry
        exact absurd (h hdry).2 (by rw [hr]; exact Bool.noConfusion)
      · exact h
    · intro hdry
      refine ⟨(h hdry).1, ?_⟩
      simp [Eventfd.readable, Eventfd.drain]
    · exact h
    · exact h
  | giveUp =>
    simp only [WakeRace.step]
    split <;> exact h

/-! ### A wait that does not drain -/

section

variable {wait : Wait σ}

/-- The rest of a round: every test is false, and the waiter arrives in `poll`. -/
theorem run_checks (hmet : wait.met s.published = false) (k n : Nat) (hn : n + k = wait.exits.length) :
    run WakeRace.step { s with waiter := .check wait n } (List.replicate (k + 1) .wait) = { s with waiter := .poll wait } := by
  induction k generalizing n with
  | zero =>
    have hend : wait.exits[n]? = none := List.getElem?_eq_none_iff.2 (by omega)
    simp only [Nat.zero_add, List.replicate_one, run_cons, run_nil, WakeRace.step, waitStep, hend]
  | succ k ih =>
    have hlt : n < wait.exits.length := by omega
    have hc : wait.exits[n] s.published = false := by
      have hall := List.any_eq_false.1 hmet wait.exits[n] (List.getElem_mem hlt)
      exact Bool.eq_false_iff.2 hall
    have hstep : WakeRace.step { s with waiter := .check wait n } .wait = { s with waiter := .check wait (n + 1) } := by
      simp only [WakeRace.step, waitStep, List.getElem?_eq_getElem hlt, hc, Bool.false_eq_true, if_false]
    rw [List.replicate_succ, run_cons, hstep]
    exact ih (n + 1) (by omega)

/-- The loop goes round `k` times on one wake. -/
theorem run_spin (hmet : wait.met s.published = false) (hdrains : wait.drains = false) (hr : s.fd.readable = true)
    (k : Nat) :
    run WakeRace.step { s with waiter := .poll wait } (List.replicate (k * (wait.exits.length + 2)) .wait) =
      { s with waiter := .poll wait, polled := s.polled + k } := by
  induction k generalizing s with
  | zero => simp
  | succ k ih =>
    have hpoll : WakeRace.step { s with waiter := .poll wait } .wait =
        { s with waiter := .check wait 0, polled := s.polled + 1 } := by
      simp only [WakeRace.step, waitStep, hr, hdrains, Bool.false_eq_true, if_true, if_false]
    have hlen : (k + 1) * (wait.exits.length + 2) = (wait.exits.length + 1) + 1 + k * (wait.exits.length + 2) := by
      rw [Nat.succ_mul]
      omega
    have hround := run_checks (s := { s with polled := s.polled + 1 }) hmet wait.exits.length 0 (Nat.zero_add _)
    rw [hlen, List.replicate_add, run_append, List.replicate_succ, run_cons, hpoll, hround]
    refine (ih (s := { s with polled := s.polled + 1 }) hmet hr).trans ?_
    rw [Nat.add_assoc, Nat.add_comm 1 k]

theorem run_laps (hpc : s.waiter = .check wait 0) (hmet : wait.met s.published = false) (hdrains : wait.drains = false)
    (hr : s.fd.readable = true) (k : Nat) :
    run WakeRace.step s (List.replicate (wait.exits.length + 1 + k * (wait.exits.length + 2)) .wait) =
      { s with waiter := .poll wait, polled := s.polled + k } := by
  have hs : s = { s with waiter := .check wait 0 } := by rw [← hpc]
  rw [List.replicate_add, run_append]
  nth_rewrite 1 [hs]
  rw [run_checks hmet wait.exits.length 0 (Nat.zero_add _)]
  exact run_spin hmet hdrains hr k

end

/-- The steps of a call after its registration, with the wait's condition false before each of them. -/
structure During (wait : Wait σ) (s : WakeRace σ) (acts : List (WakeAct σ)) : Prop where
  calls : ∀ a ∈ acts, a.isCall = false
  unmet : Meets WakeRace.step (fun s _ => wait.met s.published = false) s acts

namespace During

variable {wait : Wait σ} {acts acts' : List (WakeAct σ)}

theorem nil : During wait s [] := ⟨fun _ h => (by cases h), trivial⟩

theorem cons {a : WakeAct σ} (ha : a.isCall = false) (hmet : wait.met s.published = false)
    (h : During wait (s.step a) acts) : During wait s (a :: acts) := by
  refine ⟨fun b hb => ?_, hmet, h.unmet⟩
  rcases List.mem_cons.1 hb with rfl | hb
  · exact ha
  · exact h.calls b hb

/-- What every step other than a call keeps. -/
theorem invariant {I : WakeRace σ → Prop} (hstep : ∀ s a, a.isCall = false → I s → I (s.step a))
    (h : During wait s acts) (hs : I s) : I (run WakeRace.step s acts) :=
  (Meets.of_forall h.calls s).invariant hstep hs

theorem append (h : During wait s acts) (h' : During wait (run WakeRace.step s acts) acts') :
    During wait s (acts ++ acts') := by
  induction acts generalizing s with
  | nil => exact h'
  | cons a acts ih =>
    have htail : During wait (s.step a) acts := ⟨fun b hb => h.calls b (List.mem_cons_of_mem _ hb), h.unmet.2⟩
    exact cons (h.calls a List.mem_cons_self) h.unmet.1 (ih htail h')

/-- The waiter's own steps publish nothing. -/
theorem waits (hmet : wait.met s.published = false) (n : Nat) : During wait s (List.replicate n .wait) := by
  induction n generalizing s with
  | zero => exact nil
  | succ n ih =>
    refine cons rfl hmet (ih ?_)
    have hpub : (s.step .wait).published = s.published := by
      simp only [WakeRace.step, waitStep]
      repeat' split
      all_goals rfl
    rw [hpub]
    exact hmet

/-- One producer can always bring one more write about while the waiter is registered. -/
theorem exists_write (hv : s.fd.valid = true) (hw : 0 < s.waiters) (hmet : wait.met s.published = false) :
    ∃ acts, During wait s acts ∧ run WakeRace.step s acts =
      { s with fd := s.fd.write, writes := s.writes + 1, producers := Function.update s.producers 0 .idle } := by
  cases hp : s.producers 0 with
  | idle =>
    refine ⟨[.publish 0 id true, .produce 0], cons rfl hmet (cons rfl ?_ nil), ?_⟩
    · simp only [WakeRace.step, hp, if_true]
      exact hmet
    · simp [WakeRace.step, produceStep, hp, hv]
  | gate =>
    refine ⟨[.produce 0, .produce 0], cons rfl hmet (cons rfl ?_ nil), ?_⟩
    · simp only [WakeRace.step, produceStep, hp]
      exact hmet
    · simp [WakeRace.step, produceStep, hp, hv, hw]
  | signal =>
    refine ⟨[.produce 0], cons rfl hmet nil, ?_⟩
    simp [WakeRace.step, produceStep, hp, hv]

theorem exists_writes (hv : s.fd.valid = true) (hw : 0 < s.waiters) (hmet : wait.met s.published = false) (m : Nat) :
    ∃ acts fd producers, During wait s acts ∧ fd.valid = true ∧ (0 < s.fd.count ∨ 0 < m → 0 < fd.count) ∧
      run WakeRace.step s acts = { s with fd, producers, writes := s.writes + m } := by
  induction m with
  | zero => exact ⟨[], s.fd, s.producers, nil, hv, fun h => h.elim id fun h => absurd h (Nat.lt_irrefl 0), rfl⟩
  | succ m ih =>
    obtain ⟨acts, fd, producers, hacts, hvalid, -, hrun⟩ := ih
    obtain ⟨acts', hacts', hrun'⟩ := exists_write
      (s := { s with fd, producers, writes := s.writes + m }) hvalid hw hmet
    rw [← hrun] at hacts'
    refine ⟨acts ++ acts', fd.write, Function.update producers 0 .idle, hacts.append hacts', hvalid,
      fun _ => Eventfd.write_count_pos hvalid, ?_⟩
    rw [run_append, hrun, hrun']
    rfl

end During

theorem produceStep_valid (s : WakeRace σ) (p : Nat) : (s.produceStep p).fd.valid = s.fd.valid := by
  simp only [produceStep]
  split <;> rfl

theorem step_valid (s : WakeRace σ) (a : WakeAct σ) : (s.step a).fd.valid = s.fd.valid := by
  cases a with
  | produce p => exact s.produceStep_valid p
  | wait =>
    simp only [step, waitStep]
    repeat' split
    all_goals rfl
  | _ =>
    simp only [step]
    split <;> rfl

end WakeRace

namespace WaitFn

open WakeRace

variable {w : Nat}

/-- A call in `s` does not spin: as long as its condition is false, `poll` returns readable at most once for
each of the `m` writes of the call, and once for a wake that was pending before it. -/
def NoSpin (f : WaitFn) (s : WakeRace (Driver w)) (frames : Int) (m : Nat) : Prop :=
  ∀ wait, f.wait s.published frames = some wait → ∀ acts, During wait (s.step (.call wait)) acts →
    (run step (s.step (.call wait)) acts).writes = m → (run step (s.step (.call wait)) acts).polled ≤ m + 1

section

variable {f : WaitFn} {s : WakeRace (Driver w)} {frames : Int} {wait : Wait (Driver w)}

theorem step_call (hout : s.waiter = .out) :
    s.step (.call wait) = { s with waiters := s.waiters + 1, waiter := .check wait 0, writes := 0, polled := 0 } := by
  simp only [step, hout]

theorem noSpin_of_drains (hout : s.waiter = .out) (hdrains : f.drains = true) (m : Nat) : f.NoSpin s frames m := by
  intro wait hwait acts hacts hm
  have hstart : (s.step (.call wait)).Budget := by
    rw [step_call hout]
    refine ⟨fun wait' h => ?_, ?_⟩
    · cases h
      exact (wait_drains hwait).trans hdrains
    · show 0 + due _ ≤ 0 + 1
      have := due_le { s with waiters := s.waiters + 1, waiter := .check wait 0, writes := 0, polled := 0 }
      omega
  have hend := hacts.invariant (fun _ _ ha h => h.step ha) hstart
  have := hend.polled
  omega

/-- A call that finds its condition true has no step with the condition false. -/
theorem noSpin_of_not_blocks (hout : s.waiter = .out) (hblocks : f.blocks s.published frames = false) (m : Nat) :
    f.NoSpin s frames m := by
  intro wait hwait acts hacts _
  cases acts with
  | nil =>
    rw [step_call hout]
    exact Nat.zero_le _
  | cons a acts =>
    have hmet := hacts.unmet.1
    rw [step_call hout] at hmet
    simp [blocks, hwait, hmet] at hblocks

theorem noSpin_of_dry (hout : s.waiter = .out) {m : Nat} (hdry : s.fd.valid = false ∨ s.fd.count = 0 ∧ m = 0) :
    f.NoSpin s frames m := by
  intro wait _ acts hacts hm
  have hread : s.fd.readable = false := by
    rcases hdry with hv | ⟨hc, -⟩
    · simp [Eventfd.readable, hv]
    · simp [Eventfd.readable, hc]
  have hstart : (s.step (.call wait)).fd = s.fd ∧ (s.step (.call wait)).Dry := by
    rw [step_call hout]
    exact ⟨rfl, fun _ => ⟨rfl, hread⟩⟩
  have hend := hacts.invariant (I := fun s' => s'.fd.valid = s.fd.valid ∧ s'.Dry)
    (fun s' a ha h => ⟨(step_valid s' a).trans h.1, h.2.step ha⟩) ⟨congrArg Eventfd.valid hstart.1, hstart.2⟩
  have hpolled : (run step (s.step (.call wait)) acts).polled = 0 := by
    refine (hend.2 ?_).1
    rcases hdry with hv | ⟨-, h0⟩
    · exact .inl (hend.1.trans hv)
    · exact .inr (hm.trans h0)
  omega

/-- Without the drain one wake pays for any number of rounds. -/
theorem spins (hout : s.waiter = .out) (hdrains : f.drains = false) (hblocks : f.blocks s.published frames = true)
    (hvalid : s.fd.valid = true) {m : Nat} (hwake : 0 < s.fd.count ∨ 0 < m) : ¬f.NoSpin s frames m := by
  intro hspin
  obtain ⟨wait, hwait, hb⟩ := (Option.any_eq_true _ _).1 hblocks
  have hmet : wait.met s.published = false := by simpa using hb
  have hnot : wait.drains = false := (wait_drains hwait).trans hdrains
  -- first the `m` writes, then a round of tests, then `m + 2` rounds on the same wake
  let s₁ : WakeRace (Driver w) := { s with waiters := s.waiters + 1, waiter := .check wait 0, writes := 0, polled := 0 }
  have hcall : s.step (.call wait) = s₁ := step_call hout
  obtain ⟨acts, fd, producers, hacts, hv, hpos, hrun⟩ := During.exists_writes (s := s₁) hvalid (Nat.succ_pos _) hmet m
  have hread : fd.readable = true := by simp [Eventfd.readable, hv, hpos hwake]
  have hlaps := run_laps (s := { s₁ with fd, producers, writes := 0 + m }) rfl hmet hnot hread (m + 2)
  have hduring := During.waits (s := { s₁ with fd, producers, writes := 0 + m }) hmet
    (wait.exits.length + 1 + (m + 2) * (wait.exits.length + 2))
  have hend := run_append step s₁ acts (List.replicate (wait.exits.length + 1 + (m + 2) * (wait.exits.length + 2)) .wait)
  have hrun₁ : run step s₁ acts = { s₁ with fd, producers, writes := 0 + m } := hrun
  rw [hrun₁, hlaps] at hend
  rw [← hrun₁] at hduring
  have hbound := hspin wait hwait
  rw [hcall] at hbound
  have hle := hbound _ (hacts.append hduring) (by rw [hend]; exact Nat.zero_add m)
  rw [hend] at hle
  have : 0 + (m + 2) ≤ m + 1 := hle
  omega

end

/-- A wait spins exactly when it does not drain the eventfd it was woken through: a call does not spin if and
only if its function drains, it returns or finds its condition true before it polls, the channel has no
eventfd, or no wake is pending at the call and none comes during it. -/
theorem wait_without_drain_spins (f : WaitFn) (s : WakeRace (Driver w)) (hout : s.waiter = .out) (frames : Int)
    (m : Nat) :
    f.NoSpin s frames m ↔
      f.drains = true ∨ f.blocks s.published frames = false ∨ s.fd.valid = false ∨ s.fd.count = 0 ∧ m = 0 := by
  constructor
  · intro hspin
    by_contra hcond
    simp only [not_or, not_and, Bool.not_eq_true, Bool.not_eq_false] at hcond
    obtain ⟨hdrains, hblocks, hvalid, hwake⟩ := hcond
    refine spins hout hdrains hblocks hvalid ?_ hspin
    omega
  · intro hcond
    rcases hcond with hdrains | hblocks | hvalid | hdry
    · exact noSpin_of_drains hout hdrains m
    · exact noSpin_of_not_blocks hout hblocks m
    · exact noSpin_of_dry hout (.inl hvalid)
    · exact noSpin_of_dry hout (.inr hdry)

/-- A running stereo session with room for four frames. -/
def fourFramesFree : Driver 64 :=
  let z : RingSize 64 := .smallest
  let f : StreamFormat := { channels := 2, bytesPerSample := 2 }
  { pb := { ring := Ring.assign z, format := f, playbackStarted := true, playbackTargetFrames := 4, writeHeadroomFrames := 0 }
    cap := { ring := Ring.assign z, format := f }, streaming := true }

/-- The run of a call that finds the wake of an earlier write: nothing drains it, so `poll` returns readable again. -/
theorem polled_again {f : WaitFn} (hf : f = .writableFramesUntil ∨ f = .playbackCreditUntil) :
    let s : WakeRace (Driver 64) := .start fourFramesFree { count := 1 }
    ∃ wait, f.wait fourFramesFree 8 = some wait ∧ ∃ acts, During wait (s.step (.call wait)) acts ∧
      (run step (s.step (.call wait)) acts).writes = 0 ∧ (run step (s.step (.call wait)) acts).polled = 3 := by
  intro s
  have hblocks : f.blocks fourFramesFree 8 = true := by
    rcases hf with rfl | rfl <;> decide
  obtain ⟨wait, hwait, hb⟩ := (Option.any_eq_true _ _).1 hblocks
  have hmet : wait.met fourFramesFree = false := by simpa using hb
  refine ⟨wait, hwait, List.replicate 19 .wait, During.waits hmet 19, ?_, ?_⟩ <;>
    rcases hf with rfl | rfl <;> cases hwait <;> decide

/-- Both waits without a drain ask for eight frames with one wake left in the eventfd: in a call without a single
write `poll` returns readable three times. -/
theorem undrained_wake_is_polled_again :
    (let s : WakeRace (Driver 64) := .start fourFramesFree { count := 1 }
    ∃ wait, WaitFn.writableFramesUntil.wait fourFramesFree 8 = some wait ∧
      ∃ acts, During wait (s.step (.call wait)) acts ∧
        (run step (s.step (.call wait)) acts).writes = 0 ∧ (run step (s.step (.call wait)) acts).polled = 3) ∧
    (let s : WakeRace (Driver 64) := .start fourFramesFree { count := 1 }
    ∃ wait, WaitFn.playbackCreditUntil.wait fourFramesFree 8 = some wait ∧
      ∃ acts, During wait (s.step (.call wait)) acts ∧
        (run step (s.step (.call wait)) acts).writes = 0 ∧ (run step (s.step (.call wait)) acts).polled = 3) :=
  ⟨polled_again (.inl rfl), polled_again (.inr rfl)⟩

theorem wait_without_drain_spins_writable :
    let s : WakeRace (Driver 64) := .start fourFramesFree { count := 1 }
    s.waiter = .out ∧ WaitFn.writableFrames.NoSpin s 8 3 ∧ ¬WaitFn.writableFramesUntil.NoSpin s 8 3 := by
  intro s
  refine ⟨rfl, (wait_without_drain_spins .writableFrames s rfl 8 3).2 (.inl rfl), fun h => ?_⟩
  have hcond := (wait_without_drain_spins .writableFramesUntil s rfl 8 3).1 h
  exact absurd hcond (by decide)

end WaitFn

end UacDriver

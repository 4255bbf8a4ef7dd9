import UacDriver.CaptureReads
import UacDriver.Ledger
import UacDriver.Wakeup

/-!
# The promise of captureAvailableFrames

The consumer asks for a count and reads later, while capture completions keep arriving. A completion only appends: the
packet loop stores `captureHead_` ahead of where it was and never beyond the ring, and nothing that it calls moves the
tail or a term of the frame limit. The count that was seen therefore fits the window of the later read, whatever the
trim discards. The gate of both calls is `captureActive_`, and a completion closes it when the device is gone or a
submit is refused.
-/

namespace UacDriver

open Circular Cursor Runs

/-! ### What the packet loop does to the ring -/

namespace Capture

variable {w : Nat} {c : Capture w}

def Fits (c : Capture w) : Prop := c.ring.used ≤ c.ring.size.bytes

theorem dist_acceptPacket {g : CaptureProgress w} (hfit : dist g.head g.tail ≤ c.ring.size.bytes)
    (pkt : Option (List UInt8)) :
    dist g.head g.tail ≤ dist (c.acceptPacket g pkt).2.head (c.acceptPacket g pkt).2.tail ∧
      dist (c.acceptPacket g pkt).2.head (c.acceptPacket g pkt).2.tail ≤ c.ring.size.bytes := by
  cases pkt with
  | none => exact ⟨le_rfl, hfit⟩
  | some bytes =>
    have hkeep : dist g.head g.tail + c.keepCount g bytes.length ≤ c.ring.size.bytes := by
      unfold keepCount
      dsimp only
      omega
    have hdist : dist (c.acceptPacket g (some bytes)).2.head (c.acceptPacket g (some bytes)).2.tail =
        dist g.head g.tail + c.keepCount g bytes.length :=
      Cursor.dist_add_left (Nat.lt_of_le_of_lt hkeep c.ring.size.lt)
    rw [hdist]
    exact ⟨Nat.le_add_right .., hkeep⟩

theorem dist_foldl_acceptPacket (pkts : List (Option (List UInt8))) {s : Capture w × CaptureProgress w}
    (hfit : dist s.2.head s.2.tail ≤ s.1.ring.size.bytes) :
    let r := pkts.foldl (fun s pkt => s.1.acceptPacket s.2 pkt) s
    dist s.2.head s.2.tail ≤ dist r.2.head r.2.tail ∧ dist r.2.head r.2.tail ≤ s.1.ring.size.bytes ∧
      r.2.tail = s.2.tail := by
  induction pkts generalizing s with
  | nil => exact ⟨le_rfl, hfit, rfl⟩
  | cons pkt pkts ih =>
    obtain ⟨hgrow, hroom⟩ := dist_acceptPacket hfit pkt
    have hsize : (s.1.acceptPacket s.2 pkt).1.ring.size = s.1.ring.size := by cases pkt <;> rfl
    have htail : (s.1.acceptPacket s.2 pkt).2.tail = s.2.tail := by cases pkt <;> rfl
    obtain ⟨h₁, h₂, h₃⟩ := ih (s := s.1.acceptPacket s.2 pkt) (by rw [hsize]; exact hroom)
    rw [hsize] at h₂
    exact ⟨hgrow.trans h₁, h₂, h₃.trans htail⟩

/-- A completion appends to the ring and stays within it. -/
theorem receive_used (h : c.Fits) (pkts : List (Option (List UInt8))) :
    c.ring.used ≤ (c.receive pkts).ring.used ∧ (c.receive pkts).Fits := by
  obtain ⟨hgrow, hroom, htail⟩ := dist_foldl_acceptPacket pkts (s := (c, c.begin_)) h
  have hring : (c.receive pkts).ring.tail = c.ring.tail := (foldl_acceptPacket pkts (c, c.begin_)).2.2.2
  have hused : (c.receive pkts).ring.used =
      dist (pkts.foldl (fun s pkt => s.1.acceptPacket s.2 pkt) (c, c.begin_)).2.head
        (pkts.foldl (fun s pkt => s.1.acceptPacket s.2 pkt) (c, c.begin_)).2.tail := by
    rw [Ring.used, hring, htail]
    rfl
  rw [Fits, hused, receive_size]
  exact ⟨hgrow, hroom⟩

theorem Fits.advanceTail (h : c.Fits) {n : Nat} (hn : n ≤ c.ring.used) :
    (c.ring.advanceTail n).used ≤ (c.ring.advanceTail n).size.bytes := by
  rw [Ring.used_advanceTail hn]
  exact (Nat.sub_le ..).trans h

theorem Fits.discardCaptureFrames (h : c.Fits) (maxFrames : Int) : (c.discardCaptureFrames maxFrames).1.Fits := by
  refine h.advanceTail ?_
  unfold discardCount
  split
  · simp
  · exact (Nat.mul_le_mul_right _ (Nat.min_le_left ..)).trans (Nat.div_mul_le_self ..)

theorem Fits.beginCaptureLive (h : c.Fits) (keepFrames : Int) : (c.beginCaptureLive keepFrames).1.Fits := by
  have hn : c.liveDiscard keepFrames * c.stride ≤ c.ring.used := by
    unfold liveDiscard
    split
    · simp
    · exact (Nat.mul_le_mul_right _ (Nat.sub_le ..)).trans (Nat.div_mul_le_self ..)
  show Ring.used (if 0 < c.liveDiscard keepFrames then _ else _) ≤ RingSize.bytes (Ring.size (if _ then _ else _))
  split
  · exact h.advanceTail hn
  · exact h

theorem Fits.readCapturePcm (h : c.Fits) (limit : Nat) (frames : Int) : (c.readCapturePcm limit frames).1.Fits := by
  have hring : (c.prepareCaptureRead limit frames).1.ring = c.ring := by
    unfold prepareCaptureRead
    split <;> rfl
  unfold Capture.readCapturePcm
  split
  · exact h
  dsimp only
  unfold commitCaptureRead
  split
  · rw [Fits, hring]
    exact h
  rename_i hregion
  -- the new tail stands behind the frames taken from the front of the window
  have hdist := (readCursor_eq limit h).2
  unfold prepareCaptureRead at hregion ⊢
  split at hregion
  · exact absurd (.inl rfl) hregion
  rename_i hargs
  rw [if_neg hargs]
  have hn : min (dist c.ring.head (c.readCursor limit) / c.stride) frames.toNat * c.stride ≤
      dist c.ring.head (c.readCursor limit) :=
    (Nat.mul_le_mul_right _ (Nat.min_le_left ..)).trans (Nat.div_mul_le_self ..)
  show dist c.ring.head (c.readCursor limit + BitVec.ofNat w _) ≤ c.ring.size.bytes
  rw [Cursor.dist_add_right hn, hdist]
  have := h
  unfold Fits at this
  omega

end Capture

/-! ### What a step leaves of the capture side -/

namespace Driver

variable {w : Nat} {d d' d'' : Driver w}

/-- The ring, the format and the terms of the frame limit are as before. -/
structure CaptureKept (d d' : Driver w) : Prop where
  ring : d'.cap.ring = d.cap.ring
  format : d'.cap.format = d.cap.format
  geometry : d'.geometry = d.geometry
  target : d'.pb.playbackTargetFrames = d.pb.playbackTargetFrames

namespace CaptureKept

@[refl] theorem refl (d : Driver w) : CaptureKept d d := ⟨rfl, rfl, rfl, rfl⟩

theorem trans (h : CaptureKept d d') (h' : CaptureKept d' d'') : CaptureKept d d'' :=
  ⟨h'.ring.trans h.ring, h'.format.trans h.format, h'.geometry.trans h.geometry, h'.target.trans h.target⟩

theorem retireCapture (d : Driver w) : CaptureKept d d.retireCapture := ⟨rfl, rfl, rfl, rfl⟩

theorem failCapture (d : Driver w) : CaptureKept d d.failCapture := ⟨rfl, rfl, rfl, rfl⟩

theorem wakeCapture (d : Driver w) : CaptureKept d d.wakeCapture := ⟨rfl, rfl, rfl, rfl⟩

theorem submit (d : Driver w) (x : Xfer) (ok : Bool) (lengths : List Nat) : CaptureKept d (d.submit x ok lengths) :=
  ⟨rfl, rfl, rfl, rfl⟩

theorem takeAndRefill (i : Nat) : CaptureKept d (d.takeAndRefill i) := ⟨rfl, rfl, rfl, refill_targetFrames ..⟩

theorem refillScheduled (i : Nat) : CaptureKept d (d.refillScheduled i) := ⟨rfl, rfl, rfl, refill_targetFrames ..⟩

theorem resubmitOut (i : Nat) (implicit ok : Bool) : CaptureKept d (d.resubmitOut i implicit ok) := by
  cases ok <;> exact ⟨rfl, rfl, rfl, rfl⟩

theorem onIso (i : Nat) (ok : Xfer → Bool) : CaptureKept d (d.onIso i ok) := by
  have hcredit : CaptureKept d ((d.completeOut i).creditOut i) := ⟨rfl, rfl, rfl, completed_targetFrames i⟩
  refine onIso_rule (P := fun d' => CaptureKept d d') (fun _ => ⟨rfl, rfl, rfl, rfl⟩) (fun _ _ => ⟨rfl, rfl, rfl, rfl⟩)
    ?_ (fun _ _ _ _ => (hcredit.trans (takeAndRefill i)).trans (resubmitOut i true _))
    (fun _ _ => (hcredit.trans (refillScheduled i)).trans (resubmitOut i false _))
  intro _ _ _ stats
  refine hcredit.trans ?_
  unfold deferTransfer
  split <;> exact ⟨rfl, rfl, rfl, rfl⟩

theorem onFeedback (k : Nat) (x : Transfer) (ok : Xfer → Bool) : CaptureKept d (d.onFeedback k x ok) := by
  obtain ⟨hpb, hcap, hgeometry, -, -⟩ := noteFeedback_heard (d := d) x
  have hnote : CaptureKept d (d.noteFeedback x) :=
    ⟨congrArg _ hcap, congrArg _ hcap, hgeometry, congrArg _ hpb⟩
  exact onFeedback_rule (P := fun d' => CaptureKept d d') ⟨rfl, rfl, rfl, rfl⟩ ⟨rfl, rfl, rfl, rfl⟩
    (fun _ _ => hnote.trans ⟨rfl, rfl, rfl, rfl⟩) (fun _ _ => hnote.trans ⟨rfl, rfl, rfl, rfl⟩)

theorem submitPendingImplicitTransfers (ok : Xfer → Bool) : CaptureKept d (d.submitPendingImplicitTransfers ok) := by
  have hloop := submitPending_rule ok (P := fun d' _ => CaptureKept d d') (Q := fun d' _ => CaptureKept d d')
    (fun _ h => h) (fun _ _ _ _ h _ => h.trans ⟨rfl, rfl, rfl, rfl⟩)
    (fun _ i _ h _ _ => (h.trans (takeAndRefill i)).trans ⟨rfl, rfl, rfl, rfl⟩)
    (fun _ i _ h _ _ => (h.trans (takeAndRefill i)).trans ⟨rfl, rfl, rfl, rfl⟩) d d.pending (refl d)
  exact hloop.trans ⟨rfl, rfl, rfl, rfl⟩

end CaptureKept

/-- What a capture completion does to the capture side: the ring grows within its size. -/
structure CaptureGrown (d d' : Driver w) : Prop where
  used : d.cap.ring.used ≤ d'.cap.ring.used
  fits : d'.cap.Fits
  size : d'.cap.ring.size = d.cap.ring.size
  format : d'.cap.format = d.cap.format
  geometry : d'.geometry = d.geometry
  target : d'.pb.playbackTargetFrames = d.pb.playbackTargetFrames

namespace CaptureGrown

theorem refl (h : d.cap.Fits) : CaptureGrown d d := ⟨le_rfl, h, rfl, rfl, rfl, rfl⟩

theorem kept (h : CaptureGrown d d') (hk : CaptureKept d' d'') : CaptureGrown d d'' where
  used := h.used.trans (congrArg Ring.used hk.ring).ge
  fits := by
    rw [Capture.Fits, hk.ring]
    exact h.fits
  size := (congrArg Ring.size hk.ring).trans h.size
  format := hk.format.trans h.format
  geometry := hk.geometry.trans h.geometry
  target := hk.target.trans h.target

theorem trans (h : CaptureGrown d d') (h' : CaptureGrown d' d'') : CaptureGrown d d'' :=
  ⟨h.used.trans h'.used, h'.fits, h'.size.trans h.size, h'.format.trans h.format, h'.geometry.trans h.geometry,
    h'.target.trans h.target⟩

theorem onCapture (h : d.cap.Fits) (j : Nat) (x : Transfer) (ok : Xfer → Bool) : CaptureGrown d (d.onCapture j x ok) := by
  obtain ⟨hused, hfits⟩ := Capture.receive_used h (x.received d.cap.stride)
  have hreceive : CaptureGrown d (d.receiveCapture x) :=
    ⟨hused, hfits, Capture.receive_size _, Capture.receive_format _, rfl, rfl⟩
  have hwoken := (hreceive.kept (.submitPendingImplicitTransfers ok)).kept (.wakeCapture _)
  refine onCapture_rule (P := fun d' => CaptureGrown d d') (fun _ => (refl h).kept (.retireCapture d))
    (fun _ => (refl h).kept (.failCapture d)) (fun _ => hwoken.kept (.retireCapture _)) (fun _ _ => ?_) (fun _ _ => ?_)
  · exact hwoken.kept (.submit ..)
  · exact (hwoken.kept (.submit ..)).kept (.failCapture _)

theorem captureDone (h : d.cap.Fits) (j : Nat) (x : Transfer) (ok : Xfer → Bool) :
    CaptureGrown d (d.step (.captureDone j x ok)) := by
  simp only [Driver.step]
  split
  · have hrelease : CaptureGrown d (d.release (.capture j)) := (refl h).kept ⟨rfl, rfl, rfl, rfl⟩
    exact hrelease.trans (onCapture hrelease.fits j x ok)
  · exact refl h

theorem captureFrameLimit (h : CaptureGrown d d') : d'.captureFrameLimit = d.captureFrameLimit := by
  unfold Driver.captureFrameLimit Capture.stride
  rw [h.size, h.format, h.geometry, h.target]

end CaptureGrown

/-- No step of the driver overfills the capture ring. -/
theorem step_captureFits (h : d.cap.Fits) (a : DriverAct) : (d.step a).cap.Fits := by
  cases a with
  | outDone i status results ok =>
    simp only [step]
    split
    · rw [Capture.Fits, (CaptureKept.onIso i ok).ring]
      exact h
    · exact h
  | feedbackDone k x ok =>
    simp only [step]
    split
    · rw [Capture.Fits, (CaptureKept.onFeedback k x ok).ring]
      exact h
    · exact h
  | captureDone j x ok => exact (CaptureGrown.captureDone h j x ok).fits
  | readCapturePcm frames => exact h.readCapturePcm _ frames
  | discardCaptureFrames frames => exact h.discardCaptureFrames frames
  | beginCaptureLive keepFrames => exact h.beginCaptureLive keepFrames
  | _ => exact h

/-- A completion that finds the device and whose submits all succeed leaves capture on. -/
theorem captureDone_active {j : Nat} {x : Transfer} {ok : Xfer → Bool} (h : (DriverAct.captureDone j x ok).KeepsRunning) :
    (d.step (.captureDone j x ok)).cap.captureActive = d.cap.captureActive := by
  obtain ⟨hdevice, hok⟩ := h
  simp only [step]
  split
  swap
  · rfl
  generalize he : d.release (.capture j) = e
  have hactive : e.cap.captureActive = d.cap.captureActive := by rw [← he]; rfl
  have hpending : ((e.receiveCapture x).submitPendingImplicitTransfers ok).cap.captureActive = e.cap.captureActive := by
    refine submitPending_rule ok (P := fun d' _ => d'.cap.captureActive = e.cap.captureActive)
      (Q := fun d' _ => d'.cap.captureActive = e.cap.captureActive) (fun _ h => h) (fun _ _ _ _ h _ => h) ?_
      (fun _ _ _ h _ _ => h) (e.receiveCapture x) (e.receiveCapture x).pending (Capture.receive_active _)
    intro _ i _ _ _ hrefused
    rw [hok] at hrefused
    cases hrefused
  rw [← hactive]
  unfold onCapture
  split
  · rfl
  split
  · rfl
  dsimp only
  split
  · exact hpending
  · rw [if_pos (hok _)]
    exact hpending

/-- A run of capture completions. -/
theorem captureDone_run (h : d.cap.Fits) {as : List DriverAct} (has : ∀ a ∈ as, ∃ j x ok, a = .captureDone j x ok) :
    CaptureGrown d (run step d as) ∧
      ((∀ a ∈ as, a.KeepsRunning) → (run step d as).cap.captureActive = d.cap.captureActive) := by
  induction as generalizing d with
  | nil => exact ⟨.refl h, fun _ => rfl⟩
  | cons a as ih =>
    obtain ⟨j, x, ok, rfl⟩ := has a List.mem_cons_self
    have hstep := CaptureGrown.captureDone h j x ok
    obtain ⟨hgrown, hactive⟩ := ih hstep.fits fun a ha => has a (List.mem_cons_of_mem _ ha)
    refine ⟨hstep.trans hgrown, fun hrun => ?_⟩
    rw [run_cons, hactive fun a ha => hrun a (List.mem_cons_of_mem _ ha)]
    exact captureDone_active (hrun _ List.mem_cons_self)

/-- The promise of `captureAvailableFrames`. A consumer sees `n` frames in a state of any run and then only capture
completions follow, with any statuses and lengths. While capture is on, a read of `n` frames gets all of them and
counts no underrun; it is on unless a completion found the device gone or had a submit refused, and then the read
gets nothing and counts no underrun either. -/
theorem captureAvailableFrames_promise {d₀ : Driver w} (hfits : d₀.cap.Fits) (as : List DriverAct) {n : Nat} (hn : 0 < n)
    (havail : n ≤ (run step d₀ as).captureAvailableFrames) {completions : List DriverAct}
    (hcompletions : ∀ a ∈ completions, ∃ j x ok, a = .captureDone j x ok) :
    let d := run step d₀ (as ++ completions)
    let read := d.cap.prepareCaptureRead d.captureFrameLimit n
    (d.cap.captureActive = true → read.2.frames = n ∧ read.1.captureUnderruns = d.cap.captureUnderruns) ∧
      (d.cap.captureActive = false → read.2.frames = 0 ∧ read.1.captureUnderruns = d.cap.captureUnderruns) ∧
      ((∀ a ∈ completions, a.KeepsRunning) → d.cap.captureActive = true) := by
  intro d read
  obtain ⟨e, he⟩ : ∃ e, e = run step d₀ as := ⟨_, rfl⟩
  have hd : d = run step e completions := by rw [he]; exact run_append ..
  rw [← he] at havail
  have hefits : e.cap.Fits :=
    he ▸ run_invariant (I := fun d : Driver w => d.cap.Fits) (fun _ a h => step_captureFits h a) hfits as
  obtain ⟨hgrown, hactive⟩ := captureDone_run hefits hcompletions
  rw [← hd] at hgrown hactive
  -- what the consumer saw
  unfold captureAvailableFrames Capture.captureAvailableFrames at havail
  split at havail
  · omega
  rename_i hopen
  simp only [not_or, Bool.not_eq_true, Bool.not_eq_false'] at hopen
  obtain ⟨hon, hstride⟩ := hopen
  have hstride' : d.cap.stride = e.cap.stride := congrArg StreamFormat.frameStride hgrown.format
  refine ⟨fun hd => ?_, fun hd => ?_, fun hrun => (hactive hrun).trans hon⟩
  · obtain ⟨-, hframes, -⟩ := d.cap.prepareCaptureRead_window d.captureFrameLimit hd hn (by omega) hgrown.fits
    have hall : read.2.frames = n := by
      have hwindow : n * d.cap.stride ≤ (d.cap.readWindow d.captureFrameLimit).length := by
        rw [Capture.readWindow_length, hgrown.captureFrameLimit, hstride']
        refine le_min ?_ (Nat.mul_le_mul_right _ (by omega))
        have hseen : n * e.cap.stride ≤ e.cap.ring.used :=
          (Nat.le_div_iff_mul_le (by omega)).1 (by omega)
        exact hseen.trans hgrown.used
      rw [hframes]
      exact Nat.min_eq_right ((Nat.le_div_iff_mul_le (by omega)).2 hwindow)
    exact ⟨hall, Capture.prepareCaptureRead_underruns hall.ge⟩
  · have hnone : read = (d.cap, {}) := if_pos (.inl (by simp [hd]))
    rw [hnone]
    exact ⟨rfl, rfl⟩

/-- One frame in the capture ring, one capture transfer in flight, and a limit of two frames. -/
def oneFrameSeen : Driver 64 where
  pb := { ring := Ring.assign .smallest }
  cap := { ring := { Ring.assign .smallest with head := 4 }, captureActive := true
           format := { channels := 2, bytesPerSample := 2 } }
  geometry := { captureLimitFrames := 2 }
  usb := { owned := {.capture 0} }

/-- One frame is seen, three more arrive in two packets around a failed one, and the read trims to the newest two. -/
theorem captureAvailableFrames_promise_trimmed :
    ∃ a : DriverAct,
      let d := oneFrameSeen.step a
      oneFrameSeen.captureAvailableFrames = 1 ∧ d.captureFrameLimit = 2 ∧ d.cap.ring.used = 16 ∧
      (d.cap.prepareCaptureRead d.captureFrameLimit 1).2.frames = 1 := by
  let t : Transfer :=
    { packets := [{ length := 8, actualLength := 8 }, { length := 8, status := .error }, { length := 8, actualLength := 4 }] }
  let a : DriverAct := .captureDone 0 t fun _ => true
  have hfits : oneFrameSeen.cap.Fits := show oneFrameSeen.cap.ring.used ≤ 4096 by decide
  have hcompletion : ∀ b ∈ [a], ∃ j x ok, b = DriverAct.captureDone j x ok := by
    simp only [List.mem_singleton, forall_eq]
    exact ⟨_, _, _, rfl⟩
  obtain ⟨hread, -, hon⟩ := captureAvailableFrames_promise hfits [] one_pos (by decide) hcompletion
  have hactive := hon (by simp only [List.mem_singleton, forall_eq]; exact ⟨by decide, fun _ => rfl⟩)
  exact ⟨a, by decide, by decide, by decide, (hread hactive).1⟩

/-- The frame seen before the device is unplugged is not read. -/
theorem captureAvailableFrames_promise_unplugged :
    let d := oneFrameSeen.step (.captureDone 0 { status := .noDevice } fun _ => true)
    oneFrameSeen.captureAvailableFrames = 1 ∧ (d.cap.prepareCaptureRead d.captureFrameLimit 1).2.frames = 0 := by
  decide

end Driver

end UacDriver

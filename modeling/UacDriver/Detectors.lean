import UacDriver.Adapter
import UacDriver.Lib.Neighbours
import UacDriver.PlaybackFifo

/-!
# The continuity detectors

Three detectors count breaks of the signal: on the samples of a quantum as it is admitted, on the packed PCM as it leaves
the ring, and on one captured channel. Each keeps the sample it has seen last and is given the signal in pieces, blocks of
the render thread or packets of the event thread. What a break is stays a parameter, the comparison of floats that the
code makes of two samples and a threshold; what is shown is which pairs of samples are compared. The pieces do not matter
to the second and the third, the first leaves out the block it begins with.
-/

namespace UacDriver

open Neighbours Runs

/-- The float arithmetic of a detector: `on` is `threshold > 0.0f`, `exceeds` that the step from the first sample to the
second is larger than the threshold. -/
structure StepTest (θ α : Type) where
  zero : θ
  on : θ → Bool
  exceeds : θ → α → α → Bool

namespace StepTest

variable {θ α : Type} (T : StepTest θ α)

/-- What the setters of the thresholds store. -/
def stored (threshold : θ) : θ := if T.on threshold then threshold else T.zero

/-- A break of a sequence of samples, each with the threshold it was inspected under: the later one decides. -/
def breaks (pair : (θ × α) × (θ × α)) : Bool := T.exceeds pair.2.1 pair.1.2 pair.2.2

/-- Under one threshold. -/
def breaksAt (threshold : θ) (pair : α × α) : Bool := T.exceeds threshold pair.1 pair.2

variable {T}

theorem countP_breaks (threshold : θ) (last : θ × α) (xs : List α) :
    (pairs (last :: xs.map (threshold, ·))).countP T.breaks = (pairs (last.2 :: xs)).countP (T.breaksAt threshold) :=
  countP_pairs_map (f := (threshold, ·)) (fun _ _ => rfl) (fun _ => rfl) xs

theorem countP_breaks_map (threshold : θ) (xs : List α) :
    (pairs (xs.map (threshold, ·))).countP T.breaks = (pairs xs).countP (T.breaksAt threshold) := by
  cases xs with
  | nil => rfl
  | cons x xs => exact countP_breaks threshold (threshold, x) xs

end StepTest

/-! ### The PCM that leaves the ring -/

/-- The first channel of each whole frame, as `memcpy` reads an `int32_t` from it. -/
def firstSamples (stride : Nat) (data : List UInt8) : List (BitVec 32) :=
  (List.range (data.length / stride)).map fun i => word (fun k => data.getD (i * stride + k) 0) 4

structure TransferDetector where
  transferContinuitySeeded : Bool := false
  lastTransferSample : BitVec 32 := 0
  transferDiscontinuities : Nat := 0

section

variable {θ : Type} (T : StepTest θ (BitVec 32))

/-- The loop of `inspectTransferContinuity` at one frame. -/
def TransferDetector.sample (threshold : θ) (d : TransferDetector) (value : BitVec 32) : TransferDetector where
  transferContinuitySeeded := true
  lastTransferSample := value
  transferDiscontinuities :=
    if d.transferContinuitySeeded && T.exceeds threshold d.lastTransferSample value then d.transferDiscontinuities + 1
    else d.transferDiscontinuities

/-- `enabled` is that of the flight recorder, without which nothing is inspected here. -/
def inspectTransferContinuity (threshold : θ) (enabled : Bool) (format : StreamFormat) (data : List UInt8)
    (d : TransferDetector) : TransferDetector :=
  if !T.on threshold || !enabled then d
  else if format.frameStride = 0 ∨ format.bytesPerSample ≠ 4 then d
  else (firstSamples format.frameStride data).foldl (TransferDetector.sample T threshold) d

/-- The guards of `inspectTransferContinuity` let it look. -/
def inspects (threshold : θ) (enabled : Bool) (format : StreamFormat) : Bool :=
  T.on threshold && enabled && decide (format.frameStride ≠ 0 ∧ format.bytesPerSample = 4)

theorem inspectTransferContinuity_eq (threshold : θ) (enabled : Bool) (format : StreamFormat) (data : List UInt8)
    (d : TransferDetector) :
    inspectTransferContinuity T threshold enabled format data d =
      if inspects T threshold enabled format then
        (firstSamples format.frameStride data).foldl (TransferDetector.sample T threshold) d
      else d := by
  have hformat : (format.frameStride = 0 ∨ format.bytesPerSample ≠ 4) ↔
      ¬(format.frameStride ≠ 0 ∧ format.bytesPerSample = 4) := by tauto
  unfold inspectTransferContinuity inspects
  rcases T.on threshold with _ | _ <;> rcases enabled with _ | _ <;>
    simp only [hformat, ite_not, Bool.not_true, Bool.not_false, Bool.or_true, Bool.or_false, Bool.true_and,
      Bool.false_and, Bool.and_false, decide_eq_true_eq, if_true, Bool.false_eq_true, if_false]

/-- What the detector has seen: nothing, or a sequence of samples. -/
structure TransferDetector.Saw (d : TransferDetector) (xs : List (θ × BitVec 32)) : Prop where
  seeded : d.transferContinuitySeeded = !xs.isEmpty
  last : ∀ hne : xs ≠ [], d.lastTransferSample = (xs.getLast hne).2
  count : d.transferDiscontinuities = (pairs xs).countP T.breaks

variable {T} {d : TransferDetector} {xs : List (θ × BitVec 32)} {threshold : θ}

theorem TransferDetector.Saw.sample (h : d.Saw T xs) (threshold : θ) (value : BitVec 32) :
    (d.sample T threshold value).Saw T (xs ++ [(threshold, value)]) := by
  refine ⟨by simp [TransferDetector.sample], fun _ => by rw [List.getLast_concat]; rfl, ?_⟩
  unfold TransferDetector.sample
  dsimp only
  by_cases hne : xs = []
  · subst hne
    rw [h.seeded]
    exact h.count
  · have hseeded : (!xs.isEmpty) = true := by simpa using hne
    rw [h.seeded, hseeded, Bool.true_and, h.last hne, h.count, pairs_concat hne, List.countP_append, List.countP_singleton]
    unfold StepTest.breaks
    dsimp only
    split <;> rfl

theorem TransferDetector.Saw.samples (h : d.Saw T xs) (threshold : θ) (values : List (BitVec 32)) :
    (values.foldl (TransferDetector.sample T threshold) d).Saw T (xs ++ values.map (threshold, ·)) := by
  induction values generalizing d xs with
  | nil => rwa [List.map_nil, List.append_nil]
  | cons value values ih =>
    rw [List.map_cons, List.append_cons]
    exact ih (h.sample threshold value)

end

/-! ### The ring with its detector -/

/-- The two clients of the ring, the detector that `drainRing` gives its bytes to, and what switches it. -/
structure WatchedRing (w : Nat) (θ : Type) where
  ring : PlaybackRun w
  detector : TransferDetector := {}
  transferDiscontinuityThreshold : θ
  recorderEnabled : Bool := false

inductive WatchedAct (θ : Type) where
  | ring (a : PlaybackAct)
  | setTransferDiscontinuityThreshold (threshold : θ)
  | setEnabled (enabled : Bool)

namespace WatchedRing

variable {w : Nat} {θ : Type} (T : StepTest θ (BitVec 32)) (s : WatchedRing w θ)

def step (s : WatchedRing w θ) : WatchedAct θ → WatchedRing w θ
  | .ring (.drain bytes) =>
    { s with
      ring := s.ring.step (.drain bytes)
      detector := inspectTransferContinuity T s.transferDiscontinuityThreshold s.recorderEnabled s.ring.pb.format
        (s.ring.pb.drainRing bytes).2 s.detector }
  | .ring a => { s with ring := s.ring.step a }
  | .setTransferDiscontinuityThreshold threshold => { s with transferDiscontinuityThreshold := T.stored threshold }
  | .setEnabled enabled => { s with recorderEnabled := enabled }

/-- The samples that a step shows the detector, each with the threshold in force. -/
def shown (s : WatchedRing w θ) : WatchedAct θ → List (θ × BitVec 32)
  | .ring (.drain bytes) =>
    if inspects T s.transferDiscontinuityThreshold s.recorderEnabled s.ring.pb.format then
      (firstSamples s.ring.pb.format.frameStride (s.ring.pb.drainRing bytes).2).map (s.transferDiscontinuityThreshold, ·)
    else []
  | _ => []

variable {T s}

/-- A step shows the detector its samples, one after the other. -/
theorem step_detector (a : WatchedAct θ) (xs : List (θ × BitVec 32)) (h : s.detector.Saw T xs) :
    (s.step T a).detector.Saw T (xs ++ s.shown T a) := by
  have hquiet {d : TransferDetector} (hd : d.Saw T xs) : d.Saw T (xs ++ []) := by rwa [List.append_nil]
  cases a with
  | ring a =>
    cases a with
    | drain bytes =>
      rw [step, shown, inspectTransferContinuity_eq]
      split
      · exact h.samples s.transferDiscontinuityThreshold _
      · exact hquiet h
    | _ => exact hquiet h
  | setTransferDiscontinuityThreshold threshold => exact hquiet h
  | setEnabled enabled => exact hquiet h

theorem run_detector (s : WatchedRing w θ) (as : List (WatchedAct θ)) {xs : List (θ × BitVec 32)}
    (h : s.detector.Saw T xs) : (run (step T) s as).detector.Saw T (xs ++ log (step T) (shown T) s as) := by
  induction as generalizing s xs with
  | nil =>
    rw [log, List.append_nil]
    exact h
  | cons a as ih =>
    rw [log, ← List.append_assoc]
    exact ih (s.step T a) (step_detector a xs h)

/-! ### Drains of whole frames -/

theorem firstSamples_append {stride : Nat} (hstride : 4 ≤ stride) {xs : List UInt8} (hwhole : stride ∣ xs.length)
    (ys : List UInt8) : firstSamples stride (xs ++ ys) = firstSamples stride xs ++ firstSamples stride ys := by
  obtain ⟨frames, hlen⟩ := hwhole
  have hpos : 0 < stride := by omega
  have hfirst : xs.length / stride = frames := by rw [hlen, Nat.mul_div_cancel_left _ hpos]
  have hboth : (xs ++ ys).length / stride = frames + ys.length / stride := by
    rw [List.length_append, hlen, Nat.mul_add_div hpos]
  unfold firstSamples
  rw [hboth, hfirst, List.range_add, List.map_append, List.map_map]
  congr 1
  · refine List.map_congr_left fun i hi => ?_
    have hframe : (i + 1) * stride ≤ frames * stride := Nat.mul_le_mul_right _ (List.mem_range.1 hi)
    refine DirectUsbOutput.word_congr fun k hk => ?_
    refine List.getD_append _ _ _ _ ?_
    rw [hlen, Nat.mul_comm stride]
    rw [Nat.succ_mul] at hframe
    omega
  · refine List.map_congr_left fun i _ => ?_
    refine DirectUsbOutput.word_congr fun k _ => ?_
    have hle : xs.length ≤ (frames + i) * stride + k := by
      rw [hlen, Nat.add_mul, Nat.mul_comm stride]
      omega
    rw [List.getD_append_right _ _ _ _ hle]
    congr 1
    rw [hlen, Nat.add_mul, Nat.mul_comm stride]
    omega

/-- A ring whose detector is on, with the whole frames that have gone through it. -/
structure Whole (T : StepTest θ (BitVec 32)) (format : StreamFormat) (threshold : θ) (s : WatchedRing w θ) : Prop where
  ring : s.ring.Inv
  negotiated : s.ring.pb.format = format
  armed : s.transferDiscontinuityThreshold = threshold
  inspects : inspects T threshold s.recorderEnabled format = true
  used : format.frameStride ∣ s.ring.pb.ring.used
  drained : format.frameStride ∣ s.ring.drained.length
  saw : s.detector.Saw T ((firstSamples format.frameStride s.ring.drained).map (threshold, ·))

theorem step_format (s : PlaybackRun w) (a : PlaybackAct) : (s.step a).pb.format = s.pb.format := by
  cases a with
  | prepare frames => exact congrArg Prod.fst (Playback.preparePlaybackWrite_eventSide (p := s.pb) frames)
  | commit => exact congrArg Prod.fst (Playback.commitPlaybackWrite_eventSide (p := s.pb) s.region)
  | fillFirst at_ xs =>
    rw [PlaybackRun.step]
    split <;> rfl
  | fillSecond at_ xs =>
    rw [PlaybackRun.step]
    split <;> rfl
  | _ => rfl

theorem four_le_stride {threshold : θ} {enabled : Bool} {format : StreamFormat}
    (h : UacDriver.inspects T threshold enabled format = true) : 4 ≤ format.frameStride := by
  obtain ⟨hne, hfour⟩ := of_decide_eq_true (Bool.and_eq_true_iff.1 h).2
  rw [StreamFormat.frameStride, hfour] at hne ⊢
  omega

/-- A step that drains nothing. -/
theorem step_quiet {a : PlaybackAct} (ha : ∀ bytes, a ≠ .drain bytes) :
    s.step T (.ring a) = { s with ring := s.ring.step a } ∧ (s.ring.step a).drained = s.ring.drained := by
  cases a with
  | drain bytes => exact absurd rfl (ha bytes)
  | fillFirst at_ xs =>
    refine ⟨rfl, ?_⟩
    rw [PlaybackRun.step]
    split <;> rfl
  | fillSecond at_ xs =>
    refine ⟨rfl, ?_⟩
    rw [PlaybackRun.step]
    split <;> rfl
  | _ => exact ⟨rfl, rfl⟩

theorem Whole.step {format : StreamFormat} {threshold : θ} (h : s.Whole T format threshold) (a : PlaybackAct)
    (ha : ∀ bytes, a = .drain bytes → format.frameStride ∣ bytes) : (s.step T (.ring a)).Whole T format threshold := by
  have hstride : s.ring.pb.stride = format.frameStride := congrArg StreamFormat.frameStride h.negotiated
  have hused := h.ring.step_aligned a (fun bytes heq => hstride ▸ ha bytes heq) (hstride ▸ h.used)
  rw [hstride] at hused
  by_cases hdrains : ∃ bytes, a = .drain bytes
  · obtain ⟨bytes, rfl⟩ := hdrains
    have hwhole : format.frameStride ∣ (s.ring.pb.drainRing bytes).2.length := by
      rw [Playback.drainRing_length, Playback.drainCount]
      rcases Nat.le_total s.ring.pb.ring.used bytes with hle | hle
      · rw [Nat.min_eq_left hle]
        exact h.used
      · rw [Nat.min_eq_right hle]
        exact ha bytes rfl
    have hsaw := step_detector (.ring (.drain bytes)) _ h.saw
    rw [shown, h.negotiated, h.armed, if_pos h.inspects, ← List.map_append,
      ← firstSamples_append (four_le_stride h.inspects) h.drained] at hsaw
    refine ⟨h.ring.step (.drain bytes), h.negotiated, h.armed, h.inspects, hused, ?_, hsaw⟩
    show format.frameStride ∣ (s.ring.drained ++ (s.ring.pb.drainRing bytes).2).length
    rw [List.length_append]
    exact Nat.dvd_add h.drained hwhole
  · obtain ⟨hstep, hdrained⟩ := step_quiet (T := T) (s := s) fun bytes heq => hdrains ⟨bytes, heq⟩
    rw [hstep]
    refine ⟨h.ring.step a, (step_format s.ring a).trans h.negotiated, h.armed, h.inspects, hused, ?_, ?_⟩
    · rw [hdrained]
      exact h.drained
    · rw [hdrained]
      exact h.saw

theorem Whole.run {format : StreamFormat} {threshold : θ} (h : s.Whole T format threshold) {as : List PlaybackAct}
    (has : PlaybackRun.WholeFrameDrains format.frameStride as) :
    (run (WatchedRing.step T) s (as.map .ring)).Whole T format threshold := by
  induction as generalizing s with
  | nil => exact h
  | cons a as ih =>
    refine ih (h.step a fun bytes heq => has bytes (heq ▸ List.mem_cons_self)) fun bytes hmem => ?_
    exact has bytes (List.mem_cons_of_mem a hmem)

end WatchedRing

/-- The detector on the PCM that leaves the ring, in every history of the two clients and of its switches: what it counts
is the neighbours that break in the sequence of first-channel samples it was shown, wherever the packets were cut and
however long it was off in between. Where it is on from the start and whole frames are drained, that sequence is of all that
has been drained, and this is what was committed first. -/
theorem transferContinuity_exact {w : Nat} {θ : Type} (T : StepTest θ (BitVec 32)) (p : Playback w) (z : RingSize w)
    (threshold : θ) (enabled : Bool) :
    let s₀ : WatchedRing w θ :=
      { ring := { pb := { p with ring := Ring.assign z } }
        transferDiscontinuityThreshold := threshold, recorderEnabled := enabled }
    (∀ as, (run (WatchedRing.step T) s₀ as).detector.transferDiscontinuities =
      (pairs (log (WatchedRing.step T) (WatchedRing.shown T) s₀ as)).countP T.breaks) ∧
    (inspects T threshold enabled p.format = true → ∀ as, PlaybackRun.WholeFrameDrains p.stride as →
      let s := run (WatchedRing.step T) s₀ (as.map .ring)
      s.detector.transferDiscontinuities = (pairs (firstSamples p.stride s.ring.drained)).countP (T.breaksAt threshold) ∧
      s.ring.drained <+: s.ring.committed) := by
  intro s₀
  have hfirst : s₀.detector.Saw T [] := ⟨rfl, fun hne => absurd rfl hne, rfl⟩
  refine ⟨fun as => (WatchedRing.run_detector s₀ as hfirst).count, fun hinspects as has => ?_⟩
  have hempty : (Ring.assign z).used = 0 := by simp [Ring.used, Ring.assign]
  have hnil : firstSamples p.format.frameStride [] = [] := by
    rw [firstSamples, List.length_nil, Nat.zero_div]
    rfl
  have hwhole : s₀.Whole T p.format threshold := by
    refine ⟨.start rfl, rfl, rfl, hinspects, ?_, Nat.dvd_zero _, ?_⟩
    · show p.format.frameStride ∣ (Ring.assign z).used
      rw [hempty]
      exact Nat.dvd_zero _
    · show s₀.detector.Saw T ((firstSamples p.format.frameStride []).map _)
      rw [hnil]
      exact hfirst
  intro s
  have hend : s.Whole T p.format threshold := hwhole.run has
  refine ⟨?_, ⟨_, hend.ring.fifo.symm⟩⟩
  rw [hend.saw.count, StepTest.countP_breaks_map]
  rfl

/-- Steps of more than a threshold, on whole numbers. -/
def wholeSteps : StepTest Nat (BitVec 32) where
  zero := 0
  on := fun threshold => decide (0 < threshold)
  exceeds := fun threshold x y => decide (threshold < (y.toInt - x.toInt).natAbs)

/-- Three frames of one channel, drained in two packets: the step to the third is a break across the cut. -/
theorem transferContinuity_exact_mono :
    let p : Playback 64 := { ring := Ring.assign defaultRing, format := { channels := 1, bytesPerSample := 4 } }
    let s := run (WatchedRing.step wholeSteps)
      { ring := { pb := { p with ring := Ring.assign defaultRing } }
        transferDiscontinuityThreshold := 100, recorderEnabled := true }
      (([.prepare 3, .fillFirst 0 [10, 0, 0, 0, 20, 0, 0, 0, 0, 1, 0, 0], .commit, .drain 8, .drain 4] :
        List PlaybackAct).map .ring)
    s.detector.transferDiscontinuities = 1 ∧ s.ring.drained.length = 12 ∧ s.ring.drained <+: s.ring.committed := by
  obtain ⟨hcount, hprefix⟩ := (transferContinuity_exact wholeSteps
    { ring := Ring.assign defaultRing, format := { channels := 1, bytesPerSample := 4 } } defaultRing 100 true).2
    (by decide) [.prepare 3, .fillFirst 0 [10, 0, 0, 0, 20, 0, 0, 0, 0, 1, 0, 0], .commit, .drain 8, .drain 4]
    (by simp [PlaybackRun.WholeFrameDrains]; decide)
  exact ⟨hcount.trans (by decide), by decide, hprefix⟩

/-! ### The quanta that are admitted -/

structure SignalDetector (α : Type) where
  /-- `lastSample_`, of the left and the right channel. -/
  lastSample : α × α
  continuitySeeded : Bool := false
  signalDiscontinuities : Nat := 0

section

variable {θ α : Type} (T : StepTest θ α)

/-- The loop of `inspectContinuity` at one frame of a channel: the sample before, and the count. -/
def continuityAt (threshold : θ) (seeded : Bool) (st : α × Nat) (value : α) : α × Nat :=
  (value, if T.exceeds threshold st.1 value && seeded then st.2 + 1 else st.2)

def inspectContinuity (threshold : θ) (left right : Nat → α) (frames : Nat) (d : SignalDetector α) : SignalDetector α :=
  if !T.on threshold then d
  else
    let st := ((List.range frames).map left).foldl (continuityAt T threshold d.continuitySeeded)
      (d.lastSample.1, d.signalDiscontinuities)
    let st' := ((List.range frames).map right).foldl (continuityAt T threshold d.continuitySeeded) (d.lastSample.2, st.2)
    -- the flag goes up behind the first block, not behind the first sample
    { lastSample := (st.1, st'.1), continuitySeeded := true, signalDiscontinuities := st'.2 }

/-- A block that was inspected. -/
structure InspectedBlock (θ α : Type) where
  threshold : θ
  left : List α
  right : List α

/-- The samples of a channel of the blocks, one block after the other, each with its threshold. -/
def channel (side : InspectedBlock θ α → List α) (blocks : List (InspectedBlock θ α)) : List (θ × α) :=
  blocks.flatMap fun block => (side block).map (block.threshold, ·)

/-- Without the first block, but for its last sample. -/
def behindFirst (side : InspectedBlock θ α → List α) (blocks : List (InspectedBlock θ α)) : List (θ × α) :=
  (channel side blocks).drop ((blocks.head?.map fun block => (side block).length).getD 0 - 1)

variable {T} {threshold : θ} {side : InspectedBlock θ α → List α} {block : InspectedBlock θ α}
  {blocks : List (InspectedBlock θ α)}

theorem continuity_loop (threshold : θ) (seeded : Bool) (xs : List α) (st : α × Nat) :
    xs.foldl (continuityAt T threshold seeded) st =
      (xs.getLastD st.1, st.2 + if seeded then (pairs (st.1 :: xs)).countP (T.breaksAt threshold) else 0) := by
  induction xs generalizing st with
  | nil => cases seeded <;> rfl
  | cons x xs ih =>
    rw [List.foldl_cons, ih, continuityAt, List.getLastD_cons, pairs_cons_cons, List.countP_cons]
    cases seeded with
    | false => rw [Bool.and_false, if_neg Bool.false_ne_true, if_neg Bool.false_ne_true, if_neg Bool.false_ne_true]
    | true =>
      have hmark : T.breaksAt threshold (st.1, x) = T.exceeds threshold st.1 x := rfl
      rw [Bool.and_true, if_pos rfl, if_pos rfl, hmark]
      dsimp only
      congr 1
      split <;> omega

theorem channel_concat : channel side (blocks ++ [block]) = channel side blocks ++ (side block).map (block.threshold, ·) := by
  rw [channel, List.flatMap_append, List.flatMap_singleton]
  rfl

/-- What is behind the first block of one channel, with one more block. -/
theorem behindFirst_concat (hsome : blocks ≠ []) :
    behindFirst side (blocks ++ [block]) = behindFirst side blocks ++ (side block).map (block.threshold, ·) := by
  obtain ⟨first, rest, rfl⟩ := List.exists_cons_of_ne_nil hsome
  unfold behindFirst
  rw [channel_concat]
  simp only [List.cons_append, List.head?_cons, Option.map_some, Option.getD_some]
  refine List.drop_append_of_le_length ?_
  rw [channel, List.flatMap_cons, List.length_append, List.length_map]
  omega

theorem behindFirst_single (side : InspectedBlock θ α → List α) {block : InspectedBlock θ α} (hfilled : side block ≠ [])
    (last : α) : behindFirst side [block] = [(block.threshold, (side block).getLastD last)] := by
  have hlast : (side block).getLastD last = (side block).getLast hfilled := by
    rw [List.getLastD_eq_getLast?, List.getLast?_eq_some_getLast hfilled, Option.getD_some]
  unfold behindFirst channel
  rw [hlast, List.flatMap_singleton, List.head?_cons, Option.map_some, Option.getD_some, ← List.map_drop,
    List.drop_length_sub_one hfilled]
  rfl

/-- One more block, where one was inspected before. -/
theorem behindFirst_step (block : InspectedBlock θ α) {last : θ × α} (hlast : (behindFirst side blocks).getLast? = some last) (hsome : blocks ≠ [])
    (hfilled : side block ≠ []) :
    (pairs (behindFirst side (blocks ++ [block]))).countP T.breaks =
        (pairs (behindFirst side blocks)).countP T.breaks +
          (pairs (last.2 :: side block)).countP (T.breaksAt block.threshold) ∧
      (behindFirst side (blocks ++ [block])).getLast? = some (block.threshold, (side block).getLastD last.2) := by
  obtain ⟨hne, hend⟩ := List.mem_getLast?_eq_getLast hlast
  rw [behindFirst_concat hsome]
  constructor
  · rw [pairs_append hne, List.countP_append, ← hend, StepTest.countP_breaks]
  · rw [List.getLast?_append, List.getLast?_map, List.getLastD_eq_getLast?, List.getLast?_eq_some_getLast hfilled]
    rfl

/-- What the detector has heard: nothing, or a sequence of blocks. -/
structure SignalDetector.Heard (T : StepTest θ α) (d : SignalDetector α) (blocks : List (InspectedBlock θ α)) : Prop where
  seeded : d.continuitySeeded = !blocks.isEmpty
  last : blocks ≠ [] →
    (∃ t, (behindFirst InspectedBlock.left blocks).getLast? = some (t, d.lastSample.1)) ∧
      ∃ t, (behindFirst InspectedBlock.right blocks).getLast? = some (t, d.lastSample.2)
  count : d.signalDiscontinuities =
    (pairs (behindFirst InspectedBlock.left blocks)).countP T.breaks +
      (pairs (behindFirst InspectedBlock.right blocks)).countP T.breaks

theorem SignalDetector.Heard.inspect {d : SignalDetector α} (h : d.Heard T blocks) (hon : T.on threshold = true)
    (left right : Nat → α) {frames : Nat} (hpos : 0 < frames) :
    (inspectContinuity T threshold left right frames d).Heard T
      (blocks ++ [⟨threshold, (List.range frames).map left, (List.range frames).map right⟩]) := by
  have hfilled (input : Nat → α) : (List.range frames).map input ≠ [] := by
    rw [← List.length_pos_iff, List.length_map, List.length_range]
    exact hpos
  unfold inspectContinuity
  rw [hon, Bool.not_true, if_neg Bool.false_ne_true]
  dsimp only
  rw [continuity_loop, continuity_loop]
  dsimp only
  let block : InspectedBlock θ α := ⟨threshold, (List.range frames).map left, (List.range frames).map right⟩
  have hseeded : true = !(blocks ++ [block]).isEmpty := by simp
  by_cases hsome : blocks = []
  · subst hsome
    have hcount : d.signalDiscontinuities = 0 := h.count
    rw [h.seeded, hcount, List.nil_append]
    have hleft : behindFirst InspectedBlock.left [block] = _ := behindFirst_single _ (hfilled left) d.lastSample.1
    have hright : behindFirst InspectedBlock.right [block] = _ := behindFirst_single _ (hfilled right) d.lastSample.2
    refine ⟨rfl, fun _ => ⟨⟨threshold, ?_⟩, threshold, ?_⟩, ?_⟩
    · rw [hleft]
      rfl
    · rw [hright]
      rfl
    · rw [hleft, hright]
      rfl
  · obtain ⟨⟨t, hleft⟩, t', hright⟩ := h.last hsome
    obtain ⟨hcount, hlast⟩ := behindFirst_step (T := T) block hleft hsome (hfilled left)
    obtain ⟨hcount', hlast'⟩ := behindFirst_step (T := T) block hright hsome (hfilled right)
    have hup : (!blocks.isEmpty) = true := by simpa using hsome
    refine ⟨hseeded, fun _ => ⟨⟨threshold, hlast⟩, threshold, hlast'⟩, ?_⟩
    rw [hcount, hcount', h.count, h.seeded, hup, if_pos rfl, if_pos rfl]
    dsimp only [block]
    omega

end

/-- The adapter with the detector that `submitQuantum` gives an admitted quantum to. -/
structure ListeningAdapter (w : Nat) (θ α : Type) where
  adapter : Adapter w
  signal : SignalDetector α
  discontinuityThreshold : θ

inductive ListeningAct (w : Nat) (θ α : Type) where
  | adapter (a : AdapterAct w α)
  | setDiscontinuityThreshold (threshold : θ)

namespace ListeningAdapter

variable {w : Nat} {θ α : Type} (T : StepTest θ α) (quantise : (bits : Nat) → α → BitVec bits)

def step (s : ListeningAdapter w θ α) : ListeningAct w θ α → ListeningAdapter w θ α
  | .adapter (.submitQuantum left right frames chargeCredit) =>
    let (adapter, submitted) := s.adapter.submitQuantum quantise left right frames chargeCredit
    { s with
      adapter
      signal := if submitted then inspectContinuity T s.discontinuityThreshold left right frames.toNat s.signal else s.signal }
  | .adapter a => { s with adapter := s.adapter.step quantise a }
  | .setDiscontinuityThreshold threshold => { s with discontinuityThreshold := T.stored threshold }

/-- The block that a call gives the detector, which a threshold of zero has it ignore. -/
def inspected (s : ListeningAdapter w θ α) : ListeningAct w θ α → List (InspectedBlock θ α)
  | .adapter (.submitQuantum left right frames chargeCredit) =>
    if (s.adapter.submitQuantum quantise left right frames chargeCredit).2 && T.on s.discontinuityThreshold then
      [⟨s.discontinuityThreshold, (List.range frames.toNat).map left, (List.range frames.toNat).map right⟩]
    else []
  | _ => []

variable {T quantise} {s : ListeningAdapter w θ α} {blocks : List (InspectedBlock θ α)}

theorem step_signal (h : s.signal.Heard T blocks) (a : ListeningAct w θ α) :
    (s.step T quantise a).signal.Heard T (blocks ++ s.inspected T quantise a) := by
  have hquiet : s.signal.Heard T (blocks ++ []) := by rwa [List.append_nil]
  cases a with
  | adapter a =>
    cases a with
    | submitQuantum left right frames chargeCredit =>
      simp only [step, inspected]
      cases hsubmitted : (s.adapter.submitQuantum quantise left right frames chargeCredit).2 with
      | false => exact hquiet
      | true =>
        have hpos : 0 < frames := by
          by_contra hle
          have hturned : s.adapter.turnsAway frames = true := by
            rw [Adapter.turnsAway, decide_eq_true (.inl (not_lt.1 hle)), Bool.true_or]
          rw [Adapter.submitQuantum, if_pos hturned] at hsubmitted
          cases hsubmitted
        cases hon : T.on s.discontinuityThreshold with
        | false =>
          rw [inspectContinuity, hon]
          exact hquiet
        | true => exact h.inspect hon left right (by omega)
    | _ => exact hquiet
  | setDiscontinuityThreshold threshold => exact hquiet

theorem run_signal (s : ListeningAdapter w θ α) (as : List (ListeningAct w θ α)) (h : s.signal.Heard T blocks) :
    (run (step T quantise) s as).signal.Heard T (blocks ++ log (step T quantise) (inspected T quantise) s as) := by
  induction as generalizing s blocks with
  | nil =>
    rw [log, List.append_nil]
    exact h
  | cons a as ih =>
    rw [log, ← List.append_assoc]
    exact ih (s.step T quantise a) (step_signal h a)

end ListeningAdapter

/-- The detector on the admitted signal, in every history of the adapter's calls: of the quanta that were published while
it was on, it counts the neighbours that break on either channel, across the cuts between quanta and across everything that
lies between two of them, starts and stops of the stream as well; but of the first quantum it takes the last sample only,
and a break within that one is not counted. -/
theorem signalContinuity_exact {w : Nat} {θ α : Type} (T : StepTest θ α) (quantise : (bits : Nat) → α → BitVec bits)
    (z : RingSize w) (silence : α) (threshold : θ) (as : List (ListeningAct w θ α)) :
    let s₀ : ListeningAdapter w θ α :=
      { adapter := .constructed z, signal := { lastSample := (silence, silence) }, discontinuityThreshold := threshold }
    let blocks := log (ListeningAdapter.step T quantise) (ListeningAdapter.inspected T quantise) s₀ as
    (run (ListeningAdapter.step T quantise) s₀ as).signal.signalDiscontinuities =
      (pairs (behindFirst InspectedBlock.left blocks)).countP T.breaks +
        (pairs (behindFirst InspectedBlock.right blocks)).countP T.breaks := by
  intro s₀ blocks
  have hfirst : s₀.signal.Heard T [] := ⟨rfl, fun hsome => absurd rfl hsome, rfl⟩
  exact (ListeningAdapter.run_signal s₀ as hfirst).count

/-! ### The captured channel -/

/-- The float arithmetic of `inspectCapture`: `peak` is the decaying peak with one more sample, `usable` that it is above
the level worth judging, `exceeds` that the step from the first sample to the second is larger than the threshold times the
peak. -/
structure PeakTest (θ α : Type) where
  zero : θ
  silence : α
  on : θ → Bool
  peak : α → α → α
  usable : α → Bool
  exceeds : θ → α → α → α → Bool

def kCaptureRampWindows : Nat := 4800

structure CaptureDetector (θ α : Type) where
  captureInspectChannel : Nat := 0
  captureDiscontinuityThreshold : θ
  capturePrevious : α
  capturePeak : α
  captureSeeded : Bool := false
  captureRampWindows : Nat := 0
  captureDetectorArmed : Bool := false
  captureDiscontinuities : Nat := 0
  captureInspectSkips : Nat := 0

/-- What concerns the detector: the setters, and a read that publishes, with the planes it has decoded. -/
inductive CaptureDetectorAct (θ α : Type) where
  | setCaptureInspectChannel (channel : Int)
  | setCaptureDiscontinuityThreshold (threshold : θ)
  | read (planes : List (List α))

/-- A sample that is held against the peak: its threshold, the one before it, itself, and the peak. -/
structure JudgedSample (θ α : Type) where
  threshold : θ
  previous : α
  value : α
  peak : α

namespace CaptureDetector

variable {θ α : Type} (P : PeakTest θ α)

/-- The loop of `inspectCapture` at one frame. -/
def sample (d : CaptureDetector θ α) (x : θ × α) : CaptureDetector θ α :=
  let peak := P.peak d.capturePeak x.2
  let levelUsable := d.captureSeeded && P.usable peak
  let ramp :=
    if levelUsable && decide (d.captureRampWindows ≤ kCaptureRampWindows) then d.captureRampWindows + 1
    else d.captureRampWindows
  let settled := levelUsable && decide (ramp > kCaptureRampWindows)
  { d with
    capturePeak := peak
    captureRampWindows := ramp
    captureDetectorArmed := d.captureDetectorArmed || settled
    captureDiscontinuities :=
      if settled && P.exceeds x.1 d.capturePrevious x.2 peak then d.captureDiscontinuities + 1
      else d.captureDiscontinuities
    capturePrevious := x.2
    captureSeeded := true }

def inspectCapture (samples : List α) (d : CaptureDetector θ α) : CaptureDetector θ α :=
  if !P.on d.captureDiscontinuityThreshold then d
  else (samples.map (d.captureDiscontinuityThreshold, ·)).foldl (sample P) d

def setCaptureInspectChannel (channel : Int) (d : CaptureDetector θ α) : CaptureDetector θ α :=
  { d with
    captureInspectChannel := channel.toNat
    capturePrevious := P.silence, capturePeak := P.silence, captureSeeded := false, captureRampWindows := 0 }

/-- The end of `readInputChannels`. -/
def inspectRead (planes : List (List α)) (d : CaptureDetector θ α) : CaptureDetector θ α :=
  match planes[d.captureInspectChannel]? with
  | some plane => d.inspectCapture P plane
  | none => if planes.length > 0 then { d with captureInspectSkips := d.captureInspectSkips + 1 } else d

def step (d : CaptureDetector θ α) : CaptureDetectorAct θ α → CaptureDetector θ α
  | .setCaptureInspectChannel channel => d.setCaptureInspectChannel P channel
  | .setCaptureDiscontinuityThreshold threshold =>
    { d with captureDiscontinuityThreshold := if P.on threshold then threshold else P.zero }
  | .read planes => d.inspectRead P planes

/-- The samples that an action shows the detector. -/
def shown (d : CaptureDetector θ α) : CaptureDetectorAct θ α → List (θ × α)
  | .read planes =>
    if P.on d.captureDiscontinuityThreshold then
      (planes[d.captureInspectChannel]?.getD []).map (d.captureDiscontinuityThreshold, ·)
    else []
  | _ => []

/-- The samples of a sequence that are held against the peak: not the first, and none under the usable level. -/
def judged : Option α → α → List (θ × α) → List (JudgedSample θ α)
  | _, _, [] => []
  | previous?, peak, (threshold, value) :: xs =>
    let peak' := P.peak peak value
    match previous? with
    | some previous =>
      if P.usable peak' then ⟨threshold, previous, value, peak'⟩ :: judged (some value) peak' xs
      else judged (some value) peak' xs
    | none => judged (some value) peak' xs

def breaks (j : JudgedSample θ α) : Bool := P.exceeds j.threshold j.previous j.value j.peak

/-- What the detector compares the next sample with. -/
def previous? (d : CaptureDetector θ α) : Option α := if d.captureSeeded then some d.capturePrevious else none

/-- What the samples `xs` have made of `d`: those judged are held back until the peak has settled. -/
structure After (d : CaptureDetector θ α) (xs : List (θ × α)) (d' : CaptureDetector θ α) : Prop where
  ramp : d'.captureRampWindows =
    min (kCaptureRampWindows + 1) (d.captureRampWindows + (judged P d.previous? d.capturePeak xs).length)
  armed : d'.captureDetectorArmed = (d.captureDetectorArmed ||
    decide (kCaptureRampWindows - d.captureRampWindows < (judged P d.previous? d.capturePeak xs).length))
  count : d'.captureDiscontinuities = d.captureDiscontinuities +
    ((judged P d.previous? d.capturePeak xs).drop (kCaptureRampWindows - d.captureRampWindows)).countP
      (breaks P)

variable {P} {d d' d'' : CaptureDetector θ α} {xs ys : List (θ × α)}

theorem judged_cons (d : CaptureDetector θ α) (x : θ × α) (xs : List (θ × α)) :
    judged P d.previous? d.capturePeak (x :: xs) =
      (if d.captureSeeded && P.usable (P.peak d.capturePeak x.2) then
        [⟨x.1, d.capturePrevious, x.2, P.peak d.capturePeak x.2⟩] else []) ++
        judged P (some x.2) (P.peak d.capturePeak x.2) xs := by
  unfold previous?
  rw [judged.eq_def]
  dsimp only
  cases d.captureSeeded with
  | false => rfl
  | true =>
    rw [if_pos rfl, Bool.true_and]
    dsimp only
    split <;> rfl

/-- A sample that is judged: it counts from the last place of the ramp on. -/
theorem sample_usable {x : θ × α} (hramp : d.captureRampWindows ≤ kCaptureRampWindows + 1)
    (hlevel : (d.captureSeeded && P.usable (P.peak d.capturePeak x.2)) = true) :
    (d.sample P x).captureRampWindows = min (kCaptureRampWindows + 1) (d.captureRampWindows + 1) ∧
      (d.sample P x).captureDetectorArmed =
        (d.captureDetectorArmed || decide (kCaptureRampWindows ≤ d.captureRampWindows)) ∧
      (d.sample P x).captureDiscontinuities = d.captureDiscontinuities +
        if decide (kCaptureRampWindows ≤ d.captureRampWindows) &&
          breaks P ⟨x.1, d.capturePrevious, x.2, P.peak d.capturePeak x.2⟩ then 1 else 0 := by
  have hnext : (if true && decide (d.captureRampWindows ≤ kCaptureRampWindows) then d.captureRampWindows + 1
      else d.captureRampWindows) = min (kCaptureRampWindows + 1) (d.captureRampWindows + 1) := by
    rw [Bool.true_and]
    split
    · rename_i hle
      have := of_decide_eq_true hle
      omega
    · rename_i hgt
      have : ¬d.captureRampWindows ≤ kCaptureRampWindows := fun hle => hgt (decide_eq_true hle)
      omega
  have hsettled : (true && decide (min (kCaptureRampWindows + 1) (d.captureRampWindows + 1) > kCaptureRampWindows)) =
      decide (kCaptureRampWindows ≤ d.captureRampWindows) := by
    rw [Bool.true_and]
    refine decide_eq_decide.2 ?_
    omega
  unfold sample breaks
  dsimp only
  rw [hlevel, hnext, hsettled]
  refine ⟨rfl, rfl, ?_⟩
  cases decide (kCaptureRampWindows ≤ d.captureRampWindows) &&
    P.exceeds x.1 d.capturePrevious x.2 (P.peak d.capturePeak x.2) <;> rfl

/-- The samples of a piece of the signal. -/
theorem samples_after (hramp : d.captureRampWindows ≤ kCaptureRampWindows + 1) (xs : List (θ × α)) :
    After P d xs (xs.foldl (sample P) d) := by
  induction xs generalizing d with
  | nil =>
    refine ⟨?_, ?_, ?_⟩
    · exact (Nat.min_eq_right hramp).symm
    · exact (Bool.or_false _).symm
    · rw [judged.eq_def, List.drop_nil]
      rfl
  | cons x xs ih =>
    have hjudged := judged_cons (P := P) d x xs
    rw [List.foldl_cons]
    cases hlevel : d.captureSeeded && P.usable (P.peak d.capturePeak x.2) with
    | false =>
      rw [hlevel, if_neg Bool.false_ne_true, List.nil_append] at hjudged
      have hsame : (d.sample P x).captureRampWindows = d.captureRampWindows ∧
          (d.sample P x).captureDetectorArmed = d.captureDetectorArmed ∧
          (d.sample P x).captureDiscontinuities = d.captureDiscontinuities := by
        simp [sample, hlevel]
      obtain ⟨hr, ha, hc⟩ := hsame
      have hrest := ih (hr.trans_le hramp)
      refine ⟨?_, ?_, ?_⟩
      · rw [hjudged, hrest.ramp, hr]
        rfl
      · rw [hjudged, hrest.armed, hr, ha]
        rfl
      · rw [hjudged, hrest.count, hr, hc]
        rfl
    | true =>
      rw [hlevel, if_pos rfl, List.singleton_append] at hjudged
      obtain ⟨hr, ha, hc⟩ := sample_usable hramp hlevel
      have hrest := ih (d := d.sample P x) (hr.trans_le (Nat.min_le_left ..))
      rcases Nat.lt_or_ge d.captureRampWindows kCaptureRampWindows with hearly | hlate
      · -- still settling: the sample takes one place of those held back
        have hplaces : kCaptureRampWindows - d.captureRampWindows =
            kCaptureRampWindows - (d.captureRampWindows + 1) + 1 := by omega
        rw [Nat.min_eq_right (by omega)] at hr
        rw [decide_eq_false (Nat.not_le.2 hearly)] at ha hc
        refine ⟨?_, ?_, ?_⟩
        · rw [hjudged, hrest.ramp, hr, List.length_cons, Nat.add_right_comm, Nat.add_assoc]
          rfl
        · rw [hjudged, hrest.armed, hr, ha, Bool.or_false, List.length_cons, hplaces]
          simp only [Nat.add_lt_add_iff_right]
          rfl
        · rw [hjudged, hrest.count, hr, hc, hplaces, List.drop_succ_cons]
          rfl
      · have hplaces : kCaptureRampWindows - d.captureRampWindows = 0 := Nat.sub_eq_zero_of_le hlate
        rw [Nat.min_eq_left (by omega)] at hr
        rw [decide_eq_true hlate] at ha hc
        refine ⟨?_, ?_, ?_⟩
        · rw [hrest.ramp, hr, hjudged, List.length_cons]
          omega
        · rw [hrest.armed, ha, hjudged, hplaces, List.length_cons, decide_eq_true (Nat.succ_pos _)]
          rw [Bool.or_true, Bool.true_or]
        · rw [hrest.count, hr, hc, hjudged, hplaces, List.drop_zero, List.countP_cons, Nat.sub_eq_zero_of_le (Nat.le_succ _),
            List.drop_zero, Bool.true_and, Nat.add_assoc, Nat.add_comm (ite _ _ _)]
          rfl

variable (P) in
/-- The switch of the channel, with what was counted before it. -/
def fresh (armed : Bool) (count : Nat) : CaptureDetector θ α where
  captureDiscontinuityThreshold := P.zero
  capturePrevious := P.silence
  capturePeak := P.silence
  captureDetectorArmed := armed
  captureDiscontinuities := count

variable (P) in
/-- Without the fields that a sample does not look at. -/
def signalSide (d : CaptureDetector θ α) : CaptureDetector θ α :=
  { d with captureInspectChannel := 0, captureDiscontinuityThreshold := P.zero, captureInspectSkips := 0 }

theorem foldl_signalSide (d : CaptureDetector θ α) (xs : List (θ × α)) :
    (xs.foldl (sample P) d).signalSide P = xs.foldl (sample P) (d.signalSide P) := by
  induction xs generalizing d with
  | nil => rfl
  | cons x xs ih => exact ih (d.sample P x)

/-- Whether an action is a switch of the channel. -/
def switches (_ : CaptureDetector θ α) : CaptureDetectorAct θ α → Bool
  | .setCaptureInspectChannel _ => true
  | _ => false

theorem step_signalSide {a : CaptureDetectorAct θ α} (hstays : d.switches a = false) :
    (d.step P a).signalSide P = ((d.shown P a).foldl (sample P) d).signalSide P := by
  cases a with
  | setCaptureInspectChannel channel => cases hstays
  | setCaptureDiscontinuityThreshold threshold => rfl
  | read planes =>
    rw [step, shown, inspectRead]
    split
    · rename_i plane hplane
      rw [inspectCapture, hplane]
      cases P.on d.captureDiscontinuityThreshold <;> rfl
    · rename_i hnone
      rw [hnone, Option.getD_none, List.map_nil, ite_self, List.foldl_nil]
      split <;> rfl

variable (P) in
/-- The breaks that one piece of the signal counts. -/
def fired (xs : List (θ × α)) : Nat := ((judged P none P.silence xs).drop kCaptureRampWindows).countP (breaks P)

variable (P) in
/-- One piece of the signal arms the detector. -/
def arms (xs : List (θ × α)) : Bool := decide (kCaptureRampWindows < (judged P none P.silence xs).length)

theorem fresh_samples {armed : Bool} {count : Nat} (h : d.signalSide P = xs.foldl (sample P) (fresh P armed count)) :
    d.captureDetectorArmed = (armed || arms P xs) ∧ d.captureDiscontinuities = count + fired P xs := by
  have hafter := samples_after (P := P) (d := fresh P armed count) (Nat.zero_le _) xs
  rw [← h] at hafter
  exact ⟨hafter.armed, hafter.count⟩

/-- A run that goes on from a piece of the signal. -/
theorem run_pieces {armed : Bool} {count : Nat} (as : List (CaptureDetectorAct θ α))
    (h : d.signalSide P = xs.foldl (sample P) (fresh P armed count)) :
    (run (step P) d as).captureDetectorArmed =
        (armed || (pieces (step P) switches (shown P) xs d as).any (arms P)) ∧
      (run (step P) d as).captureDiscontinuities =
        count + ((pieces (step P) switches (shown P) xs d as).map (fired P)).sum := by
  induction as generalizing d xs armed count with
  | nil =>
    rw [pieces, List.any_cons, List.any_nil, Bool.or_false, List.map_singleton, List.sum_singleton]
    exact fresh_samples h
  | cons a as ih =>
    rw [pieces, run_cons]
    cases hswitch : d.switches a with
    | false =>
      rw [if_neg Bool.false_ne_true]
      refine ih ?_
      rw [step_signalSide hswitch, foldl_signalSide, h, List.foldl_append]
    | true =>
      cases a with
      | setCaptureInspectChannel channel =>
        obtain ⟨harmed, hcount⟩ := fresh_samples h
        rw [if_pos rfl, List.any_cons, List.map_cons, List.sum_cons, ← Bool.or_assoc, ← Nat.add_assoc, ← harmed, ← hcount]
        have hfresh : (d.setCaptureInspectChannel P channel).signalSide P =
            ([] : List (θ × α)).foldl (sample P) (fresh P d.captureDetectorArmed d.captureDiscontinuities) := rfl
        exact ih hfresh
      | setCaptureDiscontinuityThreshold threshold => cases hswitch
      | read planes => cases hswitch

end CaptureDetector

/-- The detector on the captured channel, in every history of reads, of changes of the threshold and of switches of the
channel. The switches divide what it is shown into pieces, and nothing is compared across two of them, while the cuts
between reads do not matter. Of a piece the samples are held against the decaying peak that come after another one and are
loud enough; the first 4800 of these only let the peak settle, and the breaks are counted among the rest. The detector is
armed once a piece has more than those, and then stays so, whichever channel it is switched to. -/
theorem captureContinuity_exact {θ α : Type} (P : PeakTest θ α) (as : List (CaptureDetectorAct θ α)) :
    let d₀ : CaptureDetector θ α :=
      { captureDiscontinuityThreshold := P.zero, capturePrevious := P.silence, capturePeak := P.silence }
    let shown := pieces (CaptureDetector.step P) CaptureDetector.switches (CaptureDetector.shown P) [] d₀ as
    let d := run (CaptureDetector.step P) d₀ as
    d.captureDiscontinuities = (shown.map fun xs =>
      ((CaptureDetector.judged P none P.silence xs).drop kCaptureRampWindows).countP (CaptureDetector.breaks P)).sum ∧
    (d.captureDetectorArmed = true ↔
      ∃ xs ∈ shown, kCaptureRampWindows < (CaptureDetector.judged P none P.silence xs).length) := by
  intro d₀ shown d
  have hfresh : d₀.signalSide P =
      ([] : List (θ × α)).foldl (CaptureDetector.sample P) (CaptureDetector.fresh P false 0) := rfl
  obtain ⟨harmed, hcount⟩ := CaptureDetector.run_pieces as hfresh
  refine ⟨hcount.trans (Nat.zero_add _), ?_⟩
  rw [harmed, Bool.false_or, List.any_eq_true]
  exact exists_congr fun xs => and_congr_right fun _ => decide_eq_true_iff

end UacDriver

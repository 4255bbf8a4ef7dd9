import Mathlib.Algebra.BigOperators.Group.List.Basic
import UacDriver.Pump
import UacDriver.Session
import UacDriver.Lib.Meters

/-!
# The jitter envelope

What `onIso` and `commitPlaybackWrite` measure of a started stream: the gap to the last completion and what was outstanding
at the worst one, the drains that the gap spans, the frames that completions removed, the runway, and the occupancy of the
ring with its histogram. `resetEnvelopeMetrics` begins an epoch. Each `compare_exchange_weak` loop is one step here; that
the loops come to the same is in `RetryLoops`.
-/

namespace UacDriver

open Runs Meters

/-- The start of a low water, `std::numeric_limits<uint64_t>::max()`. -/
def kNeverSampled : Nat := 2 ^ 64 - 1

def kOccupancyBuckets : Nat := 512

def kOccupancyBucketFrames : Nat := 8

/-- `worstGapInflight_`, `worstGapPending_` and `worstGapRing_`. -/
structure GapState where
  inflight : Int := -1
  pending : Int := -1
  ring : Int := -1
  deriving DecidableEq

/-- What an OUT completion of a started stream finds, with its reading of the clock. -/
structure Completion where
  now : Nat
  completedFrames : Nat
  inflight : Int
  pendingImplicitCount : Nat
  bufferedFrames : Nat
  /-- `queuedOutFrames_` without the frames of this completion. -/
  runway : Nat

def Completion.gapState (c : Completion) : GapState := ⟨c.inflight, c.pendingImplicitCount, c.bufferedFrames⟩

structure Envelope where
  lastCompletionNs : Nat := 0
  maxCompletionGapNs : Nat := 0
  serviceGapCount : Nat := 0
  worstGap : GapState := {}
  maxMissingDrains : Nat := 0
  drainFramesMin : Nat := kNeverSampled
  drainFramesMax : Nat := 0
  queuedOutLowWater : Nat := kNeverSampled
  ringOccupancy : Nat → Nat := fun _ => 0
  ringOccupancySamples : Nat := 0
  ringLowWater : Nat := kNeverSampled
  ringHighWater : Nat := 0

/-- `nominalTransferNs_`, an `int`. -/
def StreamFormat.nominalTransferNs (f : StreamFormat) (playbackPacketsPerTransfer : Nat) : Int :=
  if 0 < f.sampleRateHz then
    ((playbackPacketsPerTransfer * 1000000000 / f.microframesPerSec : Nat) : Int).bmod (2 ^ 32)
  else 0

def occupancyBucket (occupancy : Nat) : Nat := min (kOccupancyBuckets - 1) (occupancy / kOccupancyBucketFrames)

namespace Envelope

variable (e : Envelope)

def noteGap (nominalTransferNs : Int) (c : Completion) (gap : Nat) : Envelope :=
  { e with
    maxCompletionGapNs := max e.maxCompletionGapNs gap
    worstGap := if gap > e.maxCompletionGapNs then c.gapState else e.worstGap
    serviceGapCount :=
      if 0 < nominalTransferNs ∧ gap > 2 * nominalTransferNs.toNat then e.serviceGapCount + 1 else e.serviceGapCount
    maxMissingDrains :=
      if 0 < nominalTransferNs then max e.maxMissingDrains (gap / nominalTransferNs.toNat) else e.maxMissingDrains }

def noteDrained (completedFrames : Nat) : Envelope :=
  if 0 < completedFrames then
    { e with
      drainFramesMin := min e.drainFramesMin completedFrames, drainFramesMax := max e.drainFramesMax completedFrames }
  else e

def noteRing (c : Completion) : Envelope :=
  { e with
    queuedOutLowWater := min e.queuedOutLowWater c.runway
    ringOccupancy := tally occupancyBucket e.ringOccupancy c.bufferedFrames
    ringOccupancySamples := e.ringOccupancySamples + 1
    ringLowWater := min e.ringLowWater c.bufferedFrames }

/-- The measuring block of `onIso`. -/
def complete (nominalTransferNs : Int) (c : Completion) : Envelope :=
  let e' := if e.lastCompletionNs ≠ 0 ∧ c.now > e.lastCompletionNs
    then e.noteGap nominalTransferNs c (c.now - e.lastCompletionNs) else e
  (({ e' with lastCompletionNs := c.now }).noteDrained c.completedFrames).noteRing c

/-- The high water of `commitPlaybackWrite`. -/
def noteWritten (occupancy : Nat) : Envelope := { e with ringHighWater := max e.ringHighWater occupancy }

/-- A low water as it is reported: zero before the first sample. -/
def lowWaterFrames (value : Nat) : Nat := if value = kNeverSampled then 0 else value

end Envelope

/-! ### What an epoch measures -/

/-- The gap that a completion ends, with what was outstanding. -/
def Completion.gapFrom (last : Nat) (c : Completion) : Option (Nat × GapState) :=
  if last ≠ 0 ∧ c.now > last then some (c.now - last, c.gapState) else none

/-- The gaps between consecutive completions. -/
def gaps (completions : List Completion) : List (Nat × GapState) :=
  (completions.zip completions.tail).filterMap fun (last, c) => c.gapFrom last.now

theorem gaps_concat (completions : List Completion) (c : Completion) :
    gaps (completions ++ [c]) = gaps completions ++ (c.gapFrom ((completions.map (·.now)).getLastD 0)).toList := by
  induction completions with
  | nil => rfl
  | cons first rest ih =>
    cases rest with
    | nil => simp [gaps, List.filterMap_cons]; cases c.gapFrom first.now <;> rfl
    | cons second rest =>
      have hcons (cs : List Completion) : gaps (first :: second :: cs) = (second.gapFrom first.now).toList ++ gaps (second :: cs) := by
        simp only [gaps, List.tail_cons, List.zip_cons_cons, List.filterMap_cons]
        cases second.gapFrom first.now <;> rfl
      rw [List.cons_append, List.cons_append, hcons, hcons, List.append_assoc]
      exact congrArg _ ih

namespace Envelope

section Complete

variable (e : Envelope) (nominalTransferNs : Int) (c : Completion)

/-- The block of `complete` that a gap enters. -/
def gapPart : Envelope :=
  if e.lastCompletionNs ≠ 0 ∧ c.now > e.lastCompletionNs
    then e.noteGap nominalTransferNs c (c.now - e.lastCompletionNs) else e

theorem complete_eq : e.complete nominalTransferNs c =
    (({ e.gapPart nominalTransferNs c with lastCompletionNs := c.now }).noteDrained c.completedFrames).noteRing c := rfl

theorem gapPart_rule {P : Envelope → List (Nat × GapState) → Prop} (none : P e [])
    (some : ∀ gap, P (e.noteGap nominalTransferNs c gap) [(gap, c.gapState)]) :
    P (e.gapPart nominalTransferNs c) (c.gapFrom e.lastCompletionNs).toList := by
  unfold gapPart Completion.gapFrom
  split
  · exact some _
  · exact none

theorem complete_last : (e.complete nominalTransferNs c).lastCompletionNs = c.now := by
  rw [complete_eq]
  unfold noteDrained
  split <;> rfl

theorem complete_gapFields :
    (e.complete nominalTransferNs c).maxCompletionGapNs = (e.gapPart nominalTransferNs c).maxCompletionGapNs ∧
      (e.complete nominalTransferNs c).worstGap = (e.gapPart nominalTransferNs c).worstGap ∧
      (e.complete nominalTransferNs c).serviceGapCount = (e.gapPart nominalTransferNs c).serviceGapCount ∧
      (e.complete nominalTransferNs c).maxMissingDrains = (e.gapPart nominalTransferNs c).maxMissingDrains := by
  rw [complete_eq]
  unfold noteDrained
  split <;> exact ⟨rfl, rfl, rfl, rfl⟩

theorem complete_worst :
    ((e.complete nominalTransferNs c).maxCompletionGapNs, (e.complete nominalTransferNs c).worstGap) =
      (c.gapFrom e.lastCompletionNs).toList.foldl keepWorst (e.maxCompletionGapNs, e.worstGap) := by
  obtain ⟨hmax, hworst, -, -⟩ := complete_gapFields e nominalTransferNs c
  rw [hmax, hworst]
  refine gapPart_rule (P := fun e' gaps =>
    (e'.maxCompletionGapNs, e'.worstGap) = gaps.foldl keepWorst (e.maxCompletionGapNs, e.worstGap)) e _ c rfl fun gap => ?_
  change (max e.maxCompletionGapNs gap, if gap > e.maxCompletionGapNs then c.gapState else e.worstGap) =
    if gap > e.maxCompletionGapNs then (gap, c.gapState) else (e.maxCompletionGapNs, e.worstGap)
  split
  · rename_i hgt
    rw [max_eq_right hgt.le]
  · rename_i hle
    rw [max_eq_left (not_lt.1 hle)]

theorem complete_serviceGaps : (e.complete nominalTransferNs c).serviceGapCount = e.serviceGapCount +
    (c.gapFrom e.lastCompletionNs).toList.countP
      fun gap => 0 < nominalTransferNs ∧ gap.1 > 2 * nominalTransferNs.toNat := by
  rw [(complete_gapFields e nominalTransferNs c).2.2.1]
  refine gapPart_rule (P := fun e' gaps => e'.serviceGapCount = e.serviceGapCount + gaps.countP
    fun gap => 0 < nominalTransferNs ∧ gap.1 > 2 * nominalTransferNs.toNat) e _ c rfl fun gap => ?_
  rw [List.countP_singleton]
  simp only [noteGap, decide_eq_true_eq]
  split <;> rfl

/-- The missing drains are those of the worst gap. -/
theorem complete_missing
    (h : e.maxMissingDrains = if 0 < nominalTransferNs then e.maxCompletionGapNs / nominalTransferNs.toNat else 0) :
    (e.complete nominalTransferNs c).maxMissingDrains =
      if 0 < nominalTransferNs then (e.complete nominalTransferNs c).maxCompletionGapNs / nominalTransferNs.toNat else 0 := by
  obtain ⟨hmax, -, -, hmissing⟩ := complete_gapFields e nominalTransferNs c
  rw [hmissing, hmax]
  refine gapPart_rule (P := fun e' _ => e'.maxMissingDrains =
    if 0 < nominalTransferNs then e'.maxCompletionGapNs / nominalTransferNs.toNat else 0) e _ c h fun gap => ?_
  dsimp only [noteGap]
  rw [h]
  split
  · have hmono : Monotone fun n : Nat => n / nominalTransferNs.toNat := fun _ _ hle => Nat.div_le_div_right hle
    exact hmono.map_max.symm
  · rfl

theorem complete_drains :
    (e.complete nominalTransferNs c).drainFramesMin =
        ([c.completedFrames].filter (0 < ·)).foldl min e.drainFramesMin ∧
      (e.complete nominalTransferNs c).drainFramesMax =
        ([c.completedFrames].filter (0 < ·)).foldl max e.drainFramesMax := by
  have hgap : (e.gapPart nominalTransferNs c).drainFramesMin = e.drainFramesMin ∧
      (e.gapPart nominalTransferNs c).drainFramesMax = e.drainFramesMax :=
    gapPart_rule (P := fun e' _ => e'.drainFramesMin = e.drainFramesMin ∧ e'.drainFramesMax = e.drainFramesMax) e _ c
      ⟨rfl, rfl⟩ fun _ => ⟨rfl, rfl⟩
  rw [complete_eq, ← hgap.1, ← hgap.2]
  unfold noteDrained
  by_cases hpos : 0 < c.completedFrames
  · rw [if_pos hpos, List.filter_singleton, decide_eq_true hpos]
    exact ⟨rfl, rfl⟩
  · rw [if_neg hpos, List.filter_singleton, decide_eq_false hpos]
    exact ⟨rfl, rfl⟩

/-- What a completion does to the rest. -/
theorem complete_ring : ∃ e' : Envelope, e.complete nominalTransferNs c = e'.noteRing c ∧
    e'.queuedOutLowWater = e.queuedOutLowWater ∧ e'.ringLowWater = e.ringLowWater ∧ e'.ringHighWater = e.ringHighWater ∧
    e'.ringOccupancySamples = e.ringOccupancySamples ∧ e'.ringOccupancy = e.ringOccupancy := by
  refine ⟨_, complete_eq .., ?_⟩
  refine gapPart_rule (P := fun e' _ => let e'' := ({ e' with lastCompletionNs := c.now }).noteDrained c.completedFrames
    e''.queuedOutLowWater = e.queuedOutLowWater ∧ e''.ringLowWater = e.ringLowWater ∧
      e''.ringHighWater = e.ringHighWater ∧ e''.ringOccupancySamples = e.ringOccupancySamples ∧
      e''.ringOccupancy = e.ringOccupancy) e nominalTransferNs c ?_ fun gap => ?_
  all_goals
    dsimp only [noteDrained]
    split <;> exact ⟨rfl, rfl, rfl, rfl, rfl⟩

end Complete

/-- The meters as folds over the samples; what `Measures` says of them is in the library. -/
structure Folds (e : Envelope) (nominalTransferNs : Int) (completions : List Completion) (written : List Nat) : Prop where
  last : e.lastCompletionNs = (completions.map (·.now)).getLastD 0
  worst : (e.maxCompletionGapNs, e.worstGap) = (gaps completions).foldl keepWorst (0, {})
  serviceGaps : e.serviceGapCount =
    (gaps completions).countP fun gap => 0 < nominalTransferNs ∧ gap.1 > 2 * nominalTransferNs.toNat
  missing : e.maxMissingDrains = if 0 < nominalTransferNs then e.maxCompletionGapNs / nominalTransferNs.toNat else 0
  drainMin : e.drainFramesMin = ((completions.map (·.completedFrames)).filter (0 < ·)).foldl min kNeverSampled
  drainMax : e.drainFramesMax = ((completions.map (·.completedFrames)).filter (0 < ·)).foldl max 0
  runway : e.queuedOutLowWater = (completions.map (·.runway)).foldl min kNeverSampled
  ringLow : e.ringLowWater = (completions.map (·.bufferedFrames)).foldl min kNeverSampled
  ringHigh : e.ringHighWater = written.foldl max 0
  samples : e.ringOccupancySamples = completions.length
  histogram : e.ringOccupancy = (completions.map (·.bufferedFrames)).foldl (tally occupancyBucket) fun _ => 0

namespace Folds

variable {e : Envelope} {nominalTransferNs : Int} {completions : List Completion} {written : List Nat}

theorem fresh (nominalTransferNs : Int) : Folds {} nominalTransferNs [] [] where
  last := rfl
  worst := rfl
  serviceGaps := rfl
  missing := by split <;> simp
  drainMin := rfl
  drainMax := rfl
  runway := rfl
  ringLow := rfl
  ringHigh := rfl
  samples := rfl
  histogram := rfl

theorem noteWritten (h : e.Folds nominalTransferNs completions written) (occupancy : Nat) :
    (e.noteWritten occupancy).Folds nominalTransferNs completions (written ++ [occupancy]) :=
  { h with ringHigh := by rw [List.foldl_concat, ← h.ringHigh]; rfl }

theorem complete (h : e.Folds nominalTransferNs completions written) (c : Completion) :
    (e.complete nominalTransferNs c).Folds nominalTransferNs (completions ++ [c]) written where
  last := by
    rw [List.map_append, List.map_singleton, List.getLastD_concat]
    exact complete_last ..
  worst := by
    rw [gaps_concat, List.foldl_append, ← h.worst, ← h.last]
    exact complete_worst ..
  serviceGaps := by
    rw [gaps_concat, List.countP_append, ← h.serviceGaps, ← h.last]
    exact complete_serviceGaps ..
  missing := complete_missing e nominalTransferNs c h.missing
  drainMin := by
    rw [List.map_append, List.filter_append, List.foldl_append, ← h.drainMin]
    exact (complete_drains ..).1
  drainMax := by
    rw [List.map_append, List.filter_append, List.foldl_append, ← h.drainMax]
    exact (complete_drains ..).2
  runway := by
    obtain ⟨e', heq, hkept, -⟩ := complete_ring e nominalTransferNs c
    rw [List.map_append, List.map_singleton, List.foldl_concat, ← h.runway, ← hkept, heq]
    rfl
  ringLow := by
    obtain ⟨e', heq, -, hkept, -⟩ := complete_ring e nominalTransferNs c
    rw [List.map_append, List.map_singleton, List.foldl_concat, ← h.ringLow, ← hkept, heq]
    rfl
  ringHigh := by
    obtain ⟨e', heq, -, -, hkept, -⟩ := complete_ring e nominalTransferNs c
    rw [← h.ringHigh, ← hkept, heq]
    rfl
  samples := by
    obtain ⟨e', heq, -, -, -, hkept, -⟩ := complete_ring e nominalTransferNs c
    rw [List.length_append, ← h.samples, ← hkept, heq]
    rfl
  histogram := by
    obtain ⟨e', heq, -, -, -, -, hkept⟩ := complete_ring e nominalTransferNs c
    rw [List.map_append, List.map_singleton, List.foldl_concat, ← h.histogram, ← hkept, heq]
    rfl

end Folds

end Envelope

/-! ### Sessions that are metered -/

/-- The driver with its envelope; `nominalTransferNs_` is set when the pump starts. -/
structure Metered (w : Nat) where
  driver : Driver w
  nominalTransferNs : Int
  envelope : Envelope := {}

inductive MeterAct where
  /-- A step of the session; `now` is what `onIso` reads off the clock, should it read it. -/
  | session (now : Nat) (a : DriverAct)
  | resetEnvelopeMetrics

variable {w : Nat}

/-- The meters as `startIsoPump` leaves them. -/
def Metered.started (d : Driver w) : Metered w :=
  { driver := d, nominalTransferNs := d.pb.format.nominalTransferNs d.geometry.playbackPacketsPerTransfer }

namespace Driver

variable (d : Driver w)

/-- The part of `resetEnvelopeMetrics` that the playback ring has. -/
def resetBurst : Driver w := { d with pb := { d.pb with writesSinceDrain := 0, maxWritesBetweenDrains := 0 } }

/-- The completion that the measuring block of `onIso` sees. -/
def completion (now : Nat) : DriverAct → List Completion
  | .outDone i status results _ =>
    let d' := d.deliverOut i status results
    if .out i ∈ d.usb.owned ∧ d'.keeps i = true ∧ d.pb.playbackStarted = true then
      [{ now, completedFrames := d'.outFrames i, inflight := d.inflight, pendingImplicitCount := d.pending.length
         bufferedFrames := d.pb.bufferedFrames, runway := (d'.completeOut i).pb.queuedOutFrames }]
    else []
  | _ => []

/-- The occupancy that `commitPlaybackWrite` sees. -/
def written : DriverAct → List Nat
  | .writePcm data frames =>
    let r := d.pb.writePcm data frames
    if 0 < r.2 ∧ d.pb.playbackStarted = true then [r.1.bufferedFrames] else []
  | .submitQuantum accepting policy frames packed charge =>
    let r := d.pb.submitQuantum accepting policy frames packed charge
    if r.2 = true ∧ d.pb.playbackStarted = true then [r.1.bufferedFrames] else []
  | _ => []

end Driver

namespace Metered

variable (m : Metered w)

def step : MeterAct → Metered w
  | .session now a =>
    { m with
      driver := m.driver.step a
      envelope := (m.driver.written a).foldl Envelope.noteWritten
        ((m.driver.completion now a).foldl (·.complete m.nominalTransferNs) m.envelope) }
  | .resetEnvelopeMetrics => { m with driver := m.driver.resetBurst, envelope := {} }

def completions (m : Metered w) : MeterAct → List Completion
  | .session now a => m.driver.completion now a
  | .resetEnvelopeMetrics => []

/-- A session in which no epoch begins, each step with the reading of the clock. -/
def acts (session : List (Nat × DriverAct)) : List MeterAct := session.map fun (now, a) => .session now a

end Metered

end UacDriver

import UacDriver.Session
import UacDriver.Lib.Meters
import UacDriver.Lib.Slots

/-!
# The slots of the deferred transfers

The driver keeps its deferred transfers in two arrays of `kMaxTransferCount` cells with a count: the transfer and the time
of its deferral. A deferral writes the cells at the count; `submitPendingImplicitTransfers` releases from the front and
copies the rest down. `Slotted` is the driver with the arrays, and it is the driver with the list: the list is the queue
the arrays hold. The time cells move with the transfers, so the age that a release reads is that of its own transfer.
-/

namespace UacDriver

open Runs Slots

variable {w : Nat}

/-- `pendingImplicitTransfers_`, `pendingImplicitSinceNs_` and `pendingImplicitCount_`, with the meters over them. -/
structure PendingSlots where
  transfers : Nat → Nat := fun _ => 0
  sinceNs : Nat → UInt64 := fun _ => 0
  count : Nat := 0
  depth : Nat := 0
  highWater : Nat := 0
  maxAgeNs : Nat := 0

namespace PendingSlots

variable (p : PendingSlots)

/-- The transfers deferred, oldest first, each with the time of its deferral. -/
def entries : List (Nat × UInt64) := queue (fun k => (p.transfers k, p.sinceNs k)) p.count

def push (i : Nat) (now : UInt64) : PendingSlots :=
  { p with
    transfers := Function.update p.transfers p.count i
    sinceNs := Function.update p.sinceNs p.count now
    count := p.count + 1
    depth := p.count + 1
    highWater := max p.highWater (p.count + 1) }

def noteAge (age : UInt64) : PendingSlots := { p with maxAgeNs := max p.maxAgeNs age.toNat }

/-- The end of `submitPendingImplicitTransfers`. -/
def compact (submitted : Nat) : PendingSlots :=
  if 0 < submitted then
    { p with
      transfers := shiftDown submitted (p.count - submitted) submitted p.transfers
      sinceNs := shiftDown submitted (p.count - submitted) submitted p.sinceNs
      count := p.count - submitted
      depth := p.count - submitted }
  else p

variable {p}

theorem entries_push (i : Nat) (now : UInt64) : (p.push i now).entries = p.entries ++ [(i, now)] := by
  have hbefore : queue (fun k => ((p.push i now).transfers k, (p.push i now).sinceNs k)) p.count = p.entries := by
    refine queue_congr fun k hk => ?_
    simp only [push, Function.update_of_ne (Nat.ne_of_lt hk)]
  have hlast : ((p.push i now).transfers p.count, (p.push i now).sinceNs p.count) = (i, now) := by
    simp only [push, Function.update_self]
  rw [entries, push, queue_succ]
  rw [← hbefore, ← hlast]
  rfl

theorem entries_compact (submitted : Nat) : (p.compact submitted).entries = p.entries.drop submitted := by
  unfold compact
  split
  · refine queue_drop fun k hk => ?_
    dsimp only at hk ⊢
    rw [shiftDown_apply le_rfl, shiftDown_apply le_rfl, if_pos (by omega), if_pos (by omega)]
  · rename_i hnone
    rw [Nat.eq_zero_of_not_pos hnone, List.drop_zero]

theorem length_entries : p.entries.length = p.count := length_queue _ _

theorem count_compact (submitted : Nat) : (p.compact submitted).count = p.count - submitted := by
  unfold compact
  split
  · rfl
  · omega

theorem depth_compact (h : p.depth = p.count) (submitted : Nat) :
    (p.compact submitted).depth = (p.compact submitted).count := by
  unfold compact
  split
  · rfl
  · exact h

theorem meters_compact (submitted : Nat) :
    (p.compact submitted).highWater = p.highWater ∧ (p.compact submitted).maxAgeNs = p.maxAgeNs := by
  unfold compact
  split <;> exact ⟨rfl, rfl⟩

end PendingSlots

/-- The driver with its arrays; the list of `drv` is not used. -/
structure Slotted (w : Nat) where
  drv : Driver w
  slots : PendingSlots := {}

/-- A step of the session, with what the clock reads at the deferrals and the releases in it, in order. -/
structure TimedAct where
  act : DriverAct
  now : Nat → UInt64

namespace Slotted

variable (s : Slotted w)

/-- The driver with the queue that the arrays hold. -/
def toDriver : Driver w := { s.drv with pending := s.slots.entries.map Prod.fst }

/-- The loop of `submitPendingImplicitTransfers`, with `remaining` transfers from the cell `submitted` on. -/
def submitFrom (ok : Xfer → Bool) (now : Nat → UInt64) : Nat → Nat → Slotted w → Slotted w × Nat
  | 0, submitted, s => (s, submitted)
  | remaining + 1, submitted, s =>
    let i := s.slots.transfers submitted
    if (s.drv.prepareImplicitTransfer i).2 then
      let d := (s.drv.prepareImplicitTransfer i).1.submitPrepared i (ok (.out i))
      if ok (.out i) then
        submitFrom ok now remaining (submitted + 1)
          { drv := d.queueSubmitted i true, slots := s.slots.noteAge (now submitted - s.slots.sinceNs submitted) }
      else ({ s with drv := d.failOut }, submitted)
    else ({ s with drv := (s.drv.prepareImplicitTransfer i).1 }, submitted)

def submitPendingImplicitTransfers (ok : Xfer → Bool) (now : Nat → UInt64) : Slotted w :=
  let r := submitFrom ok now s.slots.count 0 s
  { r.1 with slots := r.1.slots.compact r.2 }

/-- The deferring branch of `onIso`. -/
def deferTransfer (i : Nat) (now : UInt64) : Slotted w :=
  let d := s.drv
  if s.slots.count < kMaxTransferCount then
    let zeroRunway : Bool := d.pb.queuedOutFrames = 0 && !d.implicitZeroRunwayActive
    { drv :=
        { d.retireOut with
          implicitZeroRunwayActive := d.implicitZeroRunwayActive || d.pb.queuedOutFrames = 0
          pb := { d.pb with playbackUnderruns := d.pb.playbackUnderruns + if zeroRunway then 1 else 0 }
          stats := { d.stats with
            zeroRunwayEvents := d.stats.zeroRunwayEvents + if zeroRunway then 1 else 0
            deferredTransfers := d.stats.deferredTransfers + 1 } }
      slots := s.slots.push i now }
  else { s with drv := d.failOut }

def onIso (i : Nat) (ok : Xfer → Bool) (now : UInt64) : Slotted w :=
  if s.drv.retires i then { s with drv := (s.drv.completeOut i).retireOut }
  else if (s.drv.transfers i).status = .noDevice then { s with drv := (s.drv.completeOut i).failOut }
  else
    let d := (s.drv.completeOut i).creditOut i
    if d.implicitMode then
      if 0 < s.slots.count then ({ s with drv := d } : Slotted w).deferTransfer i now
      else if (d.prepareImplicitTransfer i).2 then
        { s with drv := (d.prepareImplicitTransfer i).1.resubmitOut i true (ok (.out i)) }
      else ({ s with drv := (d.prepareImplicitTransfer i).1 } : Slotted w).deferTransfer i now
    else { s with drv := (d.refillScheduled i).resubmitOut i false (ok (.out i)) }

def onCapture (j : Nat) (x : Transfer) (ok : Xfer → Bool) (now : Nat → UInt64) : Slotted w :=
  if !s.drv.cap.captureActive then { s with drv := s.drv.retireCapture }
  else if x.status = .cancelled ∨ s.drv.stopRequested then { s with drv := s.drv.retireCapture }
  else if x.status = .noDevice then { s with drv := s.drv.failCapture }
  else
    let s' := ({ s with drv := s.drv.receiveCapture x } : Slotted w).submitPendingImplicitTransfers ok now
    let d := s'.drv.wakeCapture
    if d.transportFailed then { s' with drv := d.retireCapture }
    else
      let d' := d.submit (.capture j) (ok (.capture j)) x.lengths
      if ok (.capture j) then { s' with drv := d' } else { s' with drv := d'.failCapture }

def step (a : TimedAct) : Slotted w :=
  match a.act with
  | .outDone i status results ok =>
    if .out i ∈ s.drv.usb.owned then
      ({ s with drv := s.drv.deliverOut i status results } : Slotted w).onIso i ok (a.now 0)
    else s
  | .captureDone j x ok =>
    if .capture j ∈ s.drv.usb.owned then
      ({ s with drv := s.drv.release (.capture j) } : Slotted w).onCapture j x ok a.now
    else s
  | act => { s with drv := s.drv.step act }

/-- A session begins with empty slots and fresh meters. -/
def start (d : Driver w) : Slotted w := { drv := d }

end Slotted

/-! ### The list of the driver that is not used -/

namespace Driver

variable {d : Driver w} (l : List Nat)

variable (d) in
def withPending : Driver w := { d with pending := l }

theorem prepareImplicitTransfer_withPending (i : Nat) :
    (d.withPending l).prepareImplicitTransfer i =
      ((d.prepareImplicitTransfer i).1.withPending l, (d.prepareImplicitTransfer i).2) := by
  have hbad : (d.withPending l).badCount i = d.badCount i := rfl
  have hmetadata : (d.withPending l).noMetadata i = d.noMetadata i := rfl
  have hpcm : (d.withPending l).noPcm i = d.noPcm i := rfl
  unfold prepareImplicitTransfer
  rw [hbad, hmetadata, hpcm]
  split_ifs <;> rfl

theorem resubmitOut_withPending (i : Nat) (implicit ok : Bool) :
    (d.withPending l).resubmitOut i implicit ok = (d.resubmitOut i implicit ok).withPending l := by
  cases ok <;> rfl

theorem deferredTransfers_resubmitOut (i : Nat) (implicit ok : Bool) :
    (d.resubmitOut i implicit ok).stats.deferredTransfers = d.stats.deferredTransfers := by
  cases ok <;> rfl

theorem onFeedback_withPending (k : Nat) (x : Transfer) (ok : Xfer → Bool) :
    (d.withPending l).onFeedback k x ok = (d.onFeedback k x ok).withPending l := by
  have hnote : (d.withPending l).noteFeedback x = (d.noteFeedback x).withPending l := by
    unfold noteFeedback
    split
    · split
      · unfold acceptFeedback
        dsimp only
        split
        · rename_i h
          exact (if_pos h).symm ▸ rfl
        · rename_i h
          exact (if_neg h).symm ▸ rfl
      · rfl
    · rfl
  have hstop : (d.withPending l).stopRequested = d.stopRequested := rfl
  unfold onFeedback
  rw [hnote, hstop]
  split_ifs <;> rfl

theorem deferredTransfers_onFeedback (k : Nat) (x : Transfer) (ok : Xfer → Bool) :
    (d.onFeedback k x ok).stats.deferredTransfers = d.stats.deferredTransfers := by
  have hnote : (d.noteFeedback x).stats.deferredTransfers = d.stats.deferredTransfers := by
    unfold noteFeedback acceptFeedback
    dsimp only
    split
    · split_ifs <;> rfl
    · rfl
  exact onFeedback_rule (P := fun d' => d'.stats.deferredTransfers = d.stats.deferredTransfers) rfl rfl
    (fun _ _ => hnote) fun _ _ => hnote

/-- A step that is no OUT and no capture completion neither reads nor writes the list. -/
theorem step_withPending (act : DriverAct) (hout : ∀ i status results ok, act ≠ .outDone i status results ok)
    (hcapture : ∀ j x ok, act ≠ .captureDone j x ok) : (d.withPending l).step act = (d.step act).withPending l := by
  cases act with
  | outDone i status results ok => exact absurd rfl (hout i status results ok)
  | captureDone j x ok => exact absurd rfl (hcapture j x ok)
  | feedbackDone k x ok =>
    by_cases h : .feedback k ∈ d.usb.owned
    · calc (d.withPending l).step (.feedbackDone k x ok)
          = ((d.release (.feedback k)).withPending l).onFeedback k x ok := if_pos h
        _ = ((d.release (.feedback k)).onFeedback k x ok).withPending l := onFeedback_withPending ..
        _ = (d.step (.feedbackDone k x ok)).withPending l := congrArg (fun d' : Driver w => d'.withPending l) (if_pos h).symm
    · exact (if_neg h).trans (congrArg (fun d' : Driver w => d'.withPending l) (if_neg h).symm)
  | _ => rfl

/-- The transfers whose OUT submission libusb accepted, in order. -/
def outOrder (d : Driver w) : List Nat := d.outSubmits.map Prod.fst

theorem outOrder_submitOut (i : Nat) (ok : Bool) (lengths : List Nat) :
    (d.submit (.out i) ok lengths).outOrder = d.outOrder ++ if ok then [i] else [] := by
  cases ok <;> simp [outOrder, outSubmits, submit, Usb.submit]

theorem outOrder_submitCapture (j : Nat) (ok : Bool) (lengths : List Nat) :
    (d.submit (.capture j) ok lengths).outOrder = d.outOrder := by
  cases ok <;> simp [outOrder, outSubmits, submit, Usb.submit]

/-- The preparation of a transfer submits nothing and defers nothing. -/
theorem prepareImplicitTransfer_quiet (i : Nat) :
    (d.prepareImplicitTransfer i).1.outOrder = d.outOrder ∧
      (d.prepareImplicitTransfer i).1.stats.deferredTransfers = d.stats.deferredTransfers := by
  unfold prepareImplicitTransfer
  split_ifs <;> exact ⟨rfl, rfl⟩

end Driver

/-! ### The release loop -/

namespace Slotted

/-- The cells from `first` to `last` are released, with readings `now`: submitted in order, each age of its own cell. -/
structure Releases (s s' : Slotted w) (now : Nat → UInt64) (first last : Nat) : Prop where
  le : first ≤ last
  slots : s'.slots = { s.slots with
    maxAgeNs := ((List.range' first (last - first)).map fun k => (now k - s.slots.sinceNs k).toNat).foldl max
      s.slots.maxAgeNs }
  order : s'.drv.outOrder = s.drv.outOrder ++ (List.range' first (last - first)).map s.slots.transfers
  deferred : s'.drv.stats.deferredTransfers = s.drv.stats.deferredTransfers

namespace Releases

variable {s s' s'' : Slotted w} {now : Nat → UInt64} {first last : Nat}

theorem none (hslots : s'.slots = s.slots) (horder : s'.drv.outOrder = s.drv.outOrder)
    (hdeferred : s'.drv.stats.deferredTransfers = s.drv.stats.deferredTransfers) : s.Releases s' now first first := by
  refine ⟨le_rfl, ?_, ?_, hdeferred⟩
  · rw [Nat.sub_self]
    exact hslots
  · rw [Nat.sub_self, horder]
    exact (List.append_nil _).symm

/-- The first release, then the others. -/
theorem cons (hslots : s'.slots = s.slots.noteAge (now first - s.slots.sinceNs first))
    (horder : s'.drv.outOrder = s.drv.outOrder ++ [s.slots.transfers first])
    (hdeferred : s'.drv.stats.deferredTransfers = s.drv.stats.deferredTransfers)
    (h : s'.Releases s'' now (first + 1) last) : s.Releases s'' now first last := by
  have hrange : List.range' first (last - first) = first :: List.range' (first + 1) (last - (first + 1)) := by
    have hle := h.le
    rw [show last - first = last - (first + 1) + 1 by omega, List.range'_succ]
  refine ⟨(Nat.le_succ first).trans h.le, ?_, ?_, h.deferred.trans hdeferred⟩
  · rw [h.slots, hrange, hslots]
    rfl
  · rw [h.order, hrange, horder, hslots, List.append_assoc]
    rfl

end Releases

theorem submitFrom_spec (ok : Xfer → Bool) (now : Nat → UInt64) (l : List Nat) {remaining : Nat} (submitted : Nat) {s : Slotted w}
    (hcount : submitted + remaining = s.slots.count) :
    let r := submitFrom ok now remaining submitted s
    s.Releases r.1 now submitted r.2 ∧ r.2 ≤ s.slots.count ∧
      Driver.submitPending ok ((s.slots.entries.map Prod.fst).drop submitted) (s.drv.withPending l) =
        (r.1.drv.withPending l, (s.slots.entries.map Prod.fst).drop r.2) := by
  induction remaining generalizing submitted s with
  | zero =>
    refine ⟨.none rfl rfl rfl, hcount.le, ?_⟩
    have hend : (s.slots.entries.map Prod.fst).drop submitted = [] := by
      refine List.drop_eq_nil_of_le ?_
      rw [List.length_map, PendingSlots.length_entries]
      omega
    rw [submitFrom, hend]
    rfl
  | succ remaining ih =>
    have hcell : (s.slots.entries.map Prod.fst).drop submitted =
        s.slots.transfers submitted :: (s.slots.entries.map Prod.fst).drop (submitted + 1) := by
      have hlt : submitted < (s.slots.entries.map Prod.fst).length := by
        rw [List.length_map, PendingSlots.length_entries]
        omega
      rw [List.drop_eq_getElem_cons hlt]
      simp [PendingSlots.entries, queue]
    obtain ⟨hquiet, hdeferred⟩ := s.drv.prepareImplicitTransfer_quiet (s.slots.transfers submitted)
    rw [hcell, Driver.submitPending, Driver.prepareImplicitTransfer_withPending, submitFrom]
    dsimp only
    split
    swap
    · exact ⟨.none rfl hquiet hdeferred, by dsimp only; omega, by rw [hcell]⟩
    split
    · rename_i hok
      obtain ⟨hrel, hle, hpending⟩ := ih
        (s := { drv := ((s.drv.prepareImplicitTransfer (s.slots.transfers submitted)).1.submitPrepared
                  (s.slots.transfers submitted) (ok (.out (s.slots.transfers submitted)))).queueSubmitted
                  (s.slots.transfers submitted) true
                slots := s.slots.noteAge (now submitted - s.slots.sinceNs submitted) })
        (submitted + 1) ((Nat.add_right_comm ..).trans hcount)
      refine ⟨.cons rfl ?_ hdeferred hrel, hle, hpending⟩
      refine (Driver.outOrder_submitOut _ _ _).trans ?_
      rw [if_pos hok]
      exact congrArg (· ++ _) hquiet
    · rename_i hok
      refine ⟨.none rfl ?_ hdeferred, by dsimp only; omega, by rw [hcell]; rfl⟩
      refine (Driver.outOrder_submitOut _ _ _).trans ?_
      rw [if_neg hok, List.append_nil]
      exact hquiet

end Slotted

/-! ### What a step does to the slots -/

namespace PendingSlots

/-- The slots after a step that released what it says, with the count of the deferrals before and after it. -/
inductive Effect (p p' : PendingSlots) (deferred deferred' : Nat) (now : Nat → UInt64) : List (Nat × UInt64) → Prop
  | quiet (hslots : p' = p) (hdeferred : deferred' = deferred) : Effect p p' deferred deferred' now []
  | defer (i : Nat) (hroom : p.count < kMaxTransferCount) (hslots : p' = p.push i (now 0))
      (hdeferred : deferred' = deferred + 1) : Effect p p' deferred deferred' now []
  | release (n : Nat) (hle : n ≤ p.count)
      (hslots : p' = ({ p with
        maxAgeNs := ((List.range' 0 n).map fun k => (now k - p.sinceNs k).toNat).foldl max p.maxAgeNs } :
          PendingSlots).compact n)
      (hdeferred : deferred' = deferred) :
      Effect p p' deferred deferred' now ((List.range' 0 n).map fun k => (p.transfers k, now k))

end PendingSlots

namespace Driver

/-- The transfers that a step puts at the end of the list, with the reading of their deferral. -/
def deferrals (d : Driver w) (a : TimedAct) : List (Nat × UInt64) :=
  ((d.step a.act).pending.drop d.pending.length).map fun i => (i, a.now 0)

/-- The OUT submissions accepted since `before`, with the readings of their releases. -/
def released (before after : List Nat) (now : Nat → UInt64) : List (Nat × UInt64) :=
  (after.drop before.length).zipIdx.map fun release => (release.1, now release.2)

theorem released_none {before after : List Nat} (h : after = before) (now : Nat → UInt64) :
    released before after now = [] := by
  rw [released, h, List.drop_length]
  rfl

/-- The OUT submissions that libusb accepts from a capture completion, each with the reading of its release. -/
def releases (d : Driver w) (a : TimedAct) : List (Nat × UInt64) :=
  match a.act with
  | .captureDone _ _ _ => released d.outOrder (d.step a.act).outOrder a.now
  | _ => []

end Driver

namespace Slotted

open PendingSlots

variable {s : Slotted w}

/-- The slots of `s` and of `s'` as an effect has them. -/
abbrev Effects (s s' : Slotted w) (now : Nat → UInt64) (released : List (Nat × UInt64)) : Prop :=
  Effect s.slots s'.slots s.drv.stats.deferredTransfers s'.drv.stats.deferredTransfers now released

theorem length_pending : s.toDriver.pending.length = s.slots.count :=
  (List.length_map _).trans length_entries

theorem deferTransfer_spec (i : Nat) (now : Nat → UInt64) :
    (s.deferTransfer i (now 0)).toDriver = s.toDriver.deferTransfer i ∧
      s.Effects (s.deferTransfer i (now 0)) now [] := by
  unfold deferTransfer Driver.deferTransfer
  rw [length_pending]
  split
  · rename_i hroom
    refine ⟨?_, .defer i hroom rfl rfl⟩
    rw [toDriver, entries_push, List.map_append]
    rfl
  · exact ⟨rfl, .quiet rfl rfl⟩

theorem onIso_spec (i : Nat) (ok : Xfer → Bool) (now : Nat → UInt64) :
    (s.onIso i ok (now 0)).toDriver = s.toDriver.onIso i ok ∧ s.Effects (s.onIso i ok (now 0)) now [] := by
  have hretires : s.toDriver.retires i = s.drv.retires i := rfl
  have hstatus : (s.toDriver.transfers i).status = (s.drv.transfers i).status := rfl
  have hmode : ((s.toDriver.completeOut i).creditOut i).implicitMode = ((s.drv.completeOut i).creditOut i).implicitMode := rfl
  have hsome : ((s.toDriver.completeOut i).creditOut i).pending ≠ [] ↔ 0 < s.slots.count := by
    rw [← length_pending]
    exact List.length_pos_iff.symm
  have hcredit : (s.toDriver.completeOut i).creditOut i =
      ((s.drv.completeOut i).creditOut i).withPending (s.slots.entries.map Prod.fst) := rfl
  unfold onIso Driver.onIso
  rw [hretires, hstatus]
  dsimp only
  rw [hmode]
  simp only [hsome]
  split
  · exact ⟨rfl, .quiet rfl rfl⟩
  split
  · exact ⟨rfl, .quiet rfl rfl⟩
  split
  swap
  · exact ⟨(Driver.resubmitOut_withPending ..).symm, .quiet rfl (Driver.deferredTransfers_resubmitOut ..)⟩
  split
  · exact deferTransfer_spec i now
  rw [hcredit, Driver.prepareImplicitTransfer_withPending]
  have hquiet := (((s.drv.completeOut i).creditOut i).prepareImplicitTransfer_quiet i).2
  dsimp only
  split
  · exact ⟨(Driver.resubmitOut_withPending ..).symm,
      .quiet rfl ((Driver.deferredTransfers_resubmitOut ..).trans hquiet)⟩
  · have hdefer := deferTransfer_spec
      (s := { s with drv := (((s.drv.completeOut i).creditOut i).prepareImplicitTransfer i).1 }) i now
    refine ⟨hdefer.1, ?_⟩
    rw [Effects, hquiet] at hdefer
    exact hdefer.2

theorem submitPendingImplicitTransfers_spec (ok : Xfer → Bool) (now : Nat → UInt64) :
    (s.submitPendingImplicitTransfers ok now).toDriver = s.toDriver.submitPendingImplicitTransfers ok ∧
      s.Effects (s.submitPendingImplicitTransfers ok now) now
        (Driver.released s.drv.outOrder (s.submitPendingImplicitTransfers ok now).drv.outOrder now) := by
  obtain ⟨hrel, hle, hpending⟩ := submitFrom_spec ok now (s.slots.entries.map Prod.fst) 0 (Nat.zero_add s.slots.count)
  unfold submitPendingImplicitTransfers Driver.submitPendingImplicitTransfers
  generalize submitFrom ok now s.slots.count 0 s = r at hrel hle hpending
  dsimp only
  constructor
  · have hloop : Driver.submitPending ok s.toDriver.pending s.toDriver = _ := hpending
    have hentries : r.1.slots.entries = s.slots.entries := by
      rw [hrel.slots]
      rfl
    rw [hloop, toDriver, entries_compact, hentries, List.map_drop]
    rfl
  · have hreleased : Driver.released s.drv.outOrder r.1.drv.outOrder now =
        (List.range' 0 r.2).map fun k => (s.slots.transfers k, now k) := by
      rw [Driver.released, hrel.order, List.drop_left, Nat.sub_zero]
      refine List.ext_getElem (by simp) fun k _ _ => ?_
      simp
    rw [hreleased]
    refine .release r.2 hle ?_ hrel.deferred
    rw [hrel.slots, Nat.sub_zero]

theorem onCapture_spec (j : Nat) (x : Transfer) (ok : Xfer → Bool) (now : Nat → UInt64) :
    (s.onCapture j x ok now).toDriver = s.toDriver.onCapture j x ok ∧
      s.Effects (s.onCapture j x ok now) now
        (Driver.released s.drv.outOrder (s.onCapture j x ok now).drv.outOrder now) := by
  have hactive : s.toDriver.cap.captureActive = s.drv.cap.captureActive := rfl
  have hstop : s.toDriver.stopRequested = s.drv.stopRequested := rfl
  have hquiet {d : Driver w} (hcalls : d.usb.calls = s.drv.usb.calls)
      (hdeferred : d.stats.deferredTransfers = s.drv.stats.deferredTransfers) :
      s.Effects { s with drv := d } now (Driver.released s.drv.outOrder d.outOrder now) := by
    have horder : d.outOrder = s.drv.outOrder := by
      rw [Driver.outOrder, Driver.outSubmits, hcalls]
      rfl
    rw [Driver.released_none horder]
    exact .quiet rfl hdeferred
  unfold onCapture Driver.onCapture
  rw [hactive, hstop]
  split
  · exact ⟨rfl, hquiet rfl rfl⟩
  split
  · exact ⟨rfl, hquiet rfl rfl⟩
  split
  · exact ⟨rfl, hquiet rfl rfl⟩
  have hreceive : s.toDriver.receiveCapture x = ({ s with drv := s.drv.receiveCapture x } : Slotted w).toDriver := rfl
  obtain ⟨href, heffect⟩ := submitPendingImplicitTransfers_spec (s := { s with drv := s.drv.receiveCapture x }) ok now
  rw [hreceive, ← href]
  generalize ({ s with drv := s.drv.receiveCapture x } : Slotted w).submitPendingImplicitTransfers ok now = s' at heffect
  have hfailed : s'.toDriver.wakeCapture.transportFailed = s'.drv.wakeCapture.transportFailed := rfl
  dsimp only
  rw [hfailed]
  split
  · exact ⟨rfl, heffect⟩
  have horder : (s'.drv.wakeCapture.submit (.capture j) (ok (.capture j)) x.lengths).outOrder = s'.drv.outOrder :=
    Driver.outOrder_submitCapture ..
  split
  · refine ⟨rfl, ?_⟩
    rw [horder]
    exact heffect
  · refine ⟨rfl, ?_⟩
    have hlost : (s'.drv.wakeCapture.submit (.capture j) (ok (.capture j)) x.lengths).failCapture.outOrder = s'.drv.outOrder :=
      horder
    rw [hlost]
    exact heffect

/-- One step of the arrays is that step of the list, and this is what it does to the slots. -/
theorem step_spec (a : TimedAct) :
    (s.step a).toDriver = s.toDriver.step a.act ∧ s.Effects (s.step a) a.now (s.toDriver.releases a) := by
  obtain ⟨act, now⟩ := a
  cases act with
  | outDone i status results ok =>
    by_cases h : .out i ∈ s.drv.usb.owned
    · have hstep : s.step ⟨.outDone i status results ok, now⟩ =
          ({ s with drv := s.drv.deliverOut i status results } : Slotted w).onIso i ok (now 0) := if_pos h
      have hdriver : s.toDriver.step (.outDone i status results ok) =
          (s.toDriver.deliverOut i status results).onIso i ok := if_pos h
      rw [hstep, hdriver]
      exact onIso_spec (s := { s with drv := s.drv.deliverOut i status results }) i ok now
    · have hstep : s.step ⟨.outDone i status results ok, now⟩ = s := if_neg h
      rw [hstep]
      exact ⟨(if_neg h).symm, .quiet rfl rfl⟩
  | captureDone j x ok =>
    by_cases h : .capture j ∈ s.drv.usb.owned
    · have hstep : s.step ⟨.captureDone j x ok, now⟩ =
          ({ s with drv := s.drv.release (.capture j) } : Slotted w).onCapture j x ok now := if_pos h
      have hdriver : s.toDriver.step (.captureDone j x ok) = (s.toDriver.release (.capture j)).onCapture j x ok :=
        if_pos h
      obtain ⟨href, heffect⟩ := onCapture_spec (s := { s with drv := s.drv.release (.capture j) }) j x ok now
      rw [Driver.releases, hstep, hdriver]
      refine ⟨href, ?_⟩
      have horder := congrArg Driver.outOrder href
      exact horder ▸ heffect
    · have hstep : s.step ⟨.captureDone j x ok, now⟩ = s := if_neg h
      have hdriver : s.toDriver.step (.captureDone j x ok) = s.toDriver := if_neg h
      rw [Driver.releases, hstep, hdriver, Driver.released_none rfl]
      exact ⟨rfl, .quiet rfl rfl⟩
  | feedbackDone k x ok =>
    refine ⟨(Driver.step_withPending _ _ (fun _ _ _ _ h => ?_) fun _ _ _ h => ?_).symm, .quiet rfl ?_⟩
    · cases h
    · cases h
    · by_cases h : .feedback k ∈ s.drv.usb.owned
      · refine (congrArg (fun d : Driver w => d.stats.deferredTransfers) (if_pos h)).trans ?_
        exact Driver.deferredTransfers_onFeedback (d := s.drv.release (.feedback k)) ..
      · exact congrArg (fun d : Driver w => d.stats.deferredTransfers) (if_neg h)
  | _ => exact ⟨rfl, .quiet rfl rfl⟩

end Slotted

/-! ### Runs -/

namespace Driver

variable (d : Driver w)

end Driver

/-- How long a transfer was pending. -/
def pendingAge (released deferred : Nat × UInt64) : Nat := (released.2 - deferred.2).toNat

namespace Slotted

open PendingSlots

/-- The slots against what was deferred and released: `gone` are the deferrals of the transfers released. -/
structure Exact (s : Slotted w) (before : Nat) (deferred released gone : List (Nat × UInt64)) : Prop where
  room : s.slots.count ≤ kMaxTransferCount
  depth : s.slots.depth = s.slots.count
  counted : s.drv.stats.deferredTransfers = before + deferred.length
  queue : deferred = gone ++ s.slots.entries
  order : gone.map Prod.fst = released.map Prod.fst
  age : s.slots.maxAgeNs = (List.zipWith pendingAge released gone).foldl max 0

variable {s : Slotted w} {before : Nat} {deferred released gone : List (Nat × UInt64)}

theorem Exact.step (h : s.Exact before deferred released gone) (a : TimedAct) :
    ∃ gone', (s.step a).Exact before (deferred ++ s.toDriver.deferrals a) (released ++ s.toDriver.releases a) gone' := by
  obtain ⟨href, heffect⟩ := s.step_spec a
  have hdeferrals : s.toDriver.deferrals a =
      ((s.step a).toDriver.pending.drop s.slots.count).map fun i => (i, a.now 0) := by
    rw [Driver.deferrals, href, length_pending]
  rw [hdeferrals]
  generalize s.toDriver.releases a = rel at heffect
  generalize s.step a = s' at heffect
  have hpending : s'.toDriver.pending = s'.slots.entries.map Prod.fst := rfl
  rw [hpending]
  cases heffect with
  | quiet hslots hdeferred =>
    refine ⟨gone, ?_⟩
    have hnone : (s'.slots.entries.map Prod.fst).drop s.slots.count = [] :=
      List.drop_eq_nil_of_le (by rw [hslots, List.length_map, length_entries])
    rw [hnone, List.map_nil, List.append_nil, List.append_nil]
    exact ⟨hslots ▸ h.room, hslots ▸ h.depth, hdeferred.trans h.counted, hslots ▸ h.queue, h.order, hslots ▸ h.age⟩
  | defer i hroom hslots hdeferred =>
    refine ⟨gone, ?_⟩
    have hentries : s'.slots.entries = s.slots.entries ++ [(i, a.now 0)] := by rw [hslots, entries_push]
    have hone : (s'.slots.entries.map Prod.fst).drop s.slots.count = [i] := by
      rw [hentries, List.map_append]
      exact List.drop_left' ((List.length_map _).trans length_entries)
    rw [hone, List.append_nil]
    refine ⟨?_, ?_, ?_, ?_, h.order, ?_⟩
    · rw [hslots]
      exact hroom
    · rw [hslots]
      rfl
    · rw [hdeferred, h.counted, List.length_append]
      rfl
    · rw [hentries, h.queue, List.append_assoc]
      rfl
    · rw [hslots]
      exact h.age
  | release n hle hslots hdeferred =>
    refine ⟨gone ++ s.slots.entries.take n, ?_⟩
    have hentries : s'.slots.entries = s.slots.entries.drop n := by
      rw [hslots, entries_compact]
      rfl
    have hnone : (s'.slots.entries.map Prod.fst).drop s.slots.count = [] := by
      refine List.drop_eq_nil_of_le ?_
      rw [hentries, List.length_map, List.length_drop, length_entries]
      exact Nat.sub_le ..
    have htaken : s.slots.entries.take n = (List.range' 0 n).map fun k => (s.slots.transfers k, s.slots.sinceNs k) := by
      rw [entries, take_queue hle, Slots.queue, List.range_eq_range']
    rw [hnone, List.map_nil, List.append_nil]
    refine ⟨?_, ?_, ?_, ?_, ?_, ?_⟩
    · rw [hslots, count_compact]
      exact (Nat.sub_le ..).trans h.room
    · rw [hslots]
      refine depth_compact ?_ n
      exact h.depth
    · exact hdeferred.trans h.counted
    · rw [hentries, List.append_assoc, List.take_append_drop]
      exact h.queue
    · rw [List.map_append, List.map_append, h.order, htaken, List.map_map, List.map_map]
      rfl
    · have hlength : released.length = gone.length := by
        rw [← List.length_map Prod.fst, ← h.order, List.length_map]
      rw [hslots, (meters_compact n).2, List.zipWith_append hlength, List.foldl_append, ← h.age, htaken,
        List.zipWith_map, List.zipWith_self]
      rfl

end Slotted

end UacDriver

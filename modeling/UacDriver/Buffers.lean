import UacDriver.Pump
import UacDriver.Session

/-!
# The buffers of a session

`startIsoPump` allocates every OUT transfer with one buffer for its largest payload, and nothing a session does
afterwards changes the allocation, the packet limit or the format. `shape` is what stays; every callback and
every client call is shown to keep it, so that the transfers a completion refills are the ones that were
allocated. What both refills of the driver put into them is the front of the playback ring.
-/

namespace UacDriver

open Runs

namespace Driver

variable {w : Nat} {d : Driver w}

/-- The allocation of the OUT transfers with the terms it was sized by. -/
def shape (d : Driver w) : Nat × Geometry × Nat × StreamFormat × (Nat → Nat × Nat) :=
  (d.outCount, d.geometry, d.pacing.maxFramesPerPacket, d.pb.format,
    fun i => ((d.transfers i).numIsoPackets, (d.transfers i).bufferBytes))

/-- A transfer written back with its own allocation. -/
theorem shape_eq_of_update {d' : Driver w} {i : Nat} {x : Transfer} (hcount : d'.outCount = d.outCount)
    (hgeometry : d'.geometry = d.geometry) (hmax : d'.pacing.maxFramesPerPacket = d.pacing.maxFramesPerPacket)
    (hformat : d'.pb.format = d.pb.format) (htransfers : d'.transfers = Function.update d.transfers i x)
    (hpackets : x.numIsoPackets = (d.transfers i).numIsoPackets) (hbytes : x.bufferBytes = (d.transfers i).bufferBytes) :
    d'.shape = d.shape := by
  have hall : (fun k => ((d'.transfers k).numIsoPackets, (d'.transfers k).bufferBytes)) =
      fun k => ((d.transfers k).numIsoPackets, (d.transfers k).bufferBytes) := by
    funext k
    rw [htransfers]
    by_cases hk : k = i
    · rw [hk, Function.update_self, hpackets, hbytes]
    · rw [Function.update_of_ne hk]
  rw [shape, hcount, hgeometry, hmax, hformat, hall, shape]

/-! ### What a refill sends -/

theorem drainAll_contents (stride p : Nat) (plan : List Nat) {pb : Playback w}
    (hused : pb.ring.used ≤ pb.ring.size.bytes) :
    (drainAll Playback.drainPacket stride p plan pb).2.flatten ++
      (drainAll Playback.drainPacket stride p plan pb).1.ring.contents = pb.ring.contents := by
  induction plan generalizing p pb with
  | nil => rfl
  | cons frames plan ih =>
    have hd : (packetDrain Playback.drainPacket p (frames * stride) pb).2 ++
          (packetDrain Playback.drainPacket p (frames * stride) pb).1.ring.contents = pb.ring.contents ∧
        (packetDrain Playback.drainPacket p (frames * stride) pb).1.ring.used ≤
          (packetDrain Playback.drainPacket p (frames * stride) pb).1.ring.size.bytes := by
      unfold packetDrain; split
      · refine ⟨Playback.drainRing_contents _ hused, ?_⟩
        show (pb.drainRing _).1.ring.used ≤ (pb.drainRing _).1.ring.size.bytes
        rw [Playback.drainRing_used, Playback.drainRing_size]
        omega
      · exact ⟨rfl, hused⟩
    simp only [drainAll, List.flatten_cons, List.append_assoc]
    rw [ih (p + 1) hd.2, hd.1]

theorem refill_contents (stride : Nat) {plan : List Nat} {pb : Playback w} {x : Transfer}
    (hused : pb.ring.used ≤ pb.ring.size.bytes) (hlen : plan.length = x.numIsoPackets) :
    (refill Playback.drainPacket stride 0 plan (pb, x)).2.payload ++
      (refill Playback.drainPacket stride 0 plan (pb, x)).1.ring.contents = pb.ring.contents := by
  have hlen' : plan.length = (pb, x).2.numIsoPackets := hlen
  rw [refill_payload _ _ hlen', refill_fst]
  exact drainAll_contents _ _ _ hused

theorem takeAndRefill_payload (i : Nat) (hused : d.pb.ring.used ≤ d.pb.ring.size.bytes) :
    ((d.takeAndRefill i).transfers i).payload ++ (d.takeAndRefill i).pb.ring.contents = d.pb.ring.contents := by
  have hx : (d.takeAndRefill i).transfers i =
      (refill Playback.drainPacket d.stride 0 (d.implicitPlan i) (d.pb, d.transfers i)).2 := Function.update_self ..
  rw [hx]
  exact refill_contents _ hused (by simp [implicitPlan, MetaFifo.frameCounts])

theorem refillScheduled_payload (i : Nat) (hused : d.pb.ring.used ≤ d.pb.ring.size.bytes) :
    ((d.refillScheduled i).transfers i).payload ++ (d.refillScheduled i).pb.ring.contents = d.pb.ring.contents := by
  have hx : (d.refillScheduled i).transfers i = (refill Playback.drainPacket d.stride 0
      (d.pacing.planPackets d.pb.format.feedbackEndpointAddress (d.transfers i).numIsoPackets).1
      (d.pb, d.transfers i)).2 := Function.update_self ..
  rw [hx]
  exact refill_contents _ hused (Pacing.planPackets_length ..)

/-! ### The callbacks -/

theorem withStats_shape (stats : TransportStats) : (d.withStats stats).shape = d.shape := rfl

theorem takeAndRefill_shape (i : Nat) : (d.takeAndRefill i).shape = d.shape :=
  shape_eq_of_update rfl rfl rfl (congrArg Prod.fst (refill_eventSide ..)) rfl (refill_numIsoPackets ..)
    (refill_bufferBytes ..)

theorem refillScheduled_shape (i : Nat) : (d.refillScheduled i).shape = d.shape :=
  shape_eq_of_update rfl rfl (Pacing.planPackets_max ..) (congrArg Prod.fst (refill_eventSide ..)) rfl
    (refill_numIsoPackets ..) (refill_bufferBytes ..)

theorem creditOut_shape (i : Nat) : ((d.completeOut i).creditOut i).shape = d.shape := by
  have hformat : ((d.completeOut i).creditOut i).pb.format = d.pb.format := by
    simp only [creditOut]; split <;> rfl
  rw [shape, hformat]
  rfl

theorem resubmitOut_shape (i : Nat) (implicit ok : Bool) : (d.resubmitOut i implicit ok).shape = d.shape := by
  unfold resubmitOut
  cases ok <;> rfl

theorem deferTransfer_shape (i : Nat) : (d.deferTransfer i).shape = d.shape := by
  unfold deferTransfer
  split <;> rfl

theorem onIso_shape (i : Nat) (ok : Xfer → Bool) : (d.onIso i ok).shape = d.shape := by
  refine onIso_rule (P := fun d' => d'.shape = d.shape) (fun _ => rfl) (fun _ _ => rfl) ?_ ?_ ?_
  · intro _ _ _ stats
    rw [deferTransfer_shape, withStats_shape, creditOut_shape]
  · intro _ _ _ _
    rw [resubmitOut_shape, takeAndRefill_shape, creditOut_shape]
  · intro _ _
    rw [resubmitOut_shape, refillScheduled_shape, creditOut_shape]

theorem noteFeedback_shape (x : Transfer) : (d.noteFeedback x).shape = d.shape := by
  unfold noteFeedback acceptFeedback
  split
  · split
    · dsimp only
      split <;> rfl
    · rfl
  · rfl

theorem onFeedback_shape (k : Nat) (x : Transfer) (ok : Xfer → Bool) : (d.onFeedback k x ok).shape = d.shape :=
  onFeedback_rule (P := fun d' => d'.shape = d.shape) rfl rfl (fun _ _ => noteFeedback_shape x)
    (fun _ _ => noteFeedback_shape x)

theorem submitPendingImplicitTransfers_shape (ok : Xfer → Bool) :
    (d.submitPendingImplicitTransfers ok).shape = d.shape := by
  refine submitPending_rule ok (P := fun d' _ => d'.shape = d.shape) (Q := fun d' _ => d'.shape = d.shape)
    (fun _ h => h) (fun _ _ _ _ h _ => h) ?_ ?_ d d.pending rfl
  · intro d' i _ h _ _
    exact (takeAndRefill_shape i).trans h
  · intro d' i _ h _ _
    exact (takeAndRefill_shape i).trans h

theorem onCapture_shape (j : Nat) (x : Transfer) (ok : Xfer → Bool) : (d.onCapture j x ok).shape = d.shape := by
  have hrel : ((d.receiveCapture x).submitPendingImplicitTransfers ok).shape = d.shape :=
    submitPendingImplicitTransfers_shape ok
  refine onCapture_rule (P := fun d' => d'.shape = d.shape) (fun _ => rfl) (fun _ => rfl) ?_ ?_ ?_
  all_goals
    generalize (d.receiveCapture x).submitPendingImplicitTransfers ok = x' at hrel
    intros
    exact hrel

/-! ### Sessions -/

theorem deliverOut_shape (i : Nat) (status : TransferStatus) (results : List TransferStatus) :
    (d.deliverOut i status results).shape = d.shape :=
  shape_eq_of_update rfl rfl rfl rfl rfl (by simp [Transfer.numIsoPackets, Transfer.completeWith]) rfl

theorem setPlayback_shape {p : Playback w} (h : p.eventSide = d.pb.eventSide) :
    ({ d with pb := p } : Driver w).shape = d.shape := by
  have hformat : p.format = d.pb.format := congrArg Prod.fst h
  show (d.outCount, d.geometry, d.pacing.maxFramesPerPacket, p.format, _) = d.shape
  rw [hformat]
  rfl

theorem step_shape (a : DriverAct) : (d.step a).shape = d.shape := by
  cases a with
  | outDone i status results ok =>
    simp only [step]
    split
    · rw [onIso_shape, deliverOut_shape]
    · rfl
  | feedbackDone k x ok =>
    simp only [step]
    split
    · rw [onFeedback_shape]; rfl
    · rfl
  | captureDone j x ok =>
    simp only [step]
    split
    · rw [onCapture_shape]; rfl
    · rfl
  | writePcm data frames => exact setPlayback_shape (Playback.writePcm_eventSide data frames)
  | submitQuantum accepting policy frames packed charge =>
    exact setPlayback_shape (Playback.submitQuantum_eventSide _ accepting policy frames packed charge)
  | takePlaybackCredit frames => exact setPlayback_shape (Playback.takePlaybackCredit_eventSide frames)
  | chargePlaybackCredit frames => exact setPlayback_shape (Playback.chargePlaybackCredit_eventSide frames)
  | _ => rfl

theorem run_shape (as : List DriverAct) : (run step d as).shape = d.shape :=
  run_invariant (I := fun d' : Driver w => d'.shape = d.shape) (fun _ a h => (step_shape a).trans h) rfl as

/-- Every OUT transfer has the descriptors and the buffer that `startIsoPump` gives it. -/
def Allocated (d : Driver w) : Prop :=
  ∀ i < d.outCount,
    (d.transfers i).Allocated d.geometry.playbackPacketsPerTransfer d.pacing.maxFramesPerPacket d.stride

theorem Allocated.of_shape {d' : Driver w} (h : d.Allocated) (hs : d'.shape = d.shape) : d'.Allocated := by
  simp only [shape, Prod.mk.injEq] at hs
  obtain ⟨hcount, hgeometry, hmax, hformat, htransfers⟩ := hs
  intro i hi
  have hx := congrFun htransfers i
  simp only [Prod.mk.injEq] at hx
  have hi' := h i (hcount ▸ hi)
  have hstride : d'.stride = d.stride := congrArg StreamFormat.frameStride hformat
  rw [hgeometry, hmax, hstride]
  exact ⟨hx.1.trans hi'.numIsoPackets, hx.2.trans hi'.bufferBytes⟩

theorem primePackets_length {maxFrames n : Nat} {f f' : MetaFifo} {plan : List Nat}
    (h : f.primePackets maxFrames n = some (plan, f')) : plan.length = n := by
  induction n generalizing f plan f' with
  | zero => cases h; rfl
  | succ n ih =>
    obtain ⟨⟨frames, f₁⟩, -, h⟩ := Option.bind_eq_some_iff.1 h
    obtain ⟨⟨rest, f₂⟩, hrest, he⟩ := Option.map_eq_some_iff.1 h
    cases he
    rw [List.length_cons, ih hrest]

theorem initialPlan_length {maxFrames : Nat} {nominal plan : List Nat} {fifo : MetaFifo}
    (h : d.initialPlan maxFrames nominal = some (plan, fifo)) : plan.length = nominal.length := by
  unfold initialPlan at h
  split at h
  · exact primePackets_length h
  · cases h; rfl

theorem startIsoPump_allocated {d' : Driver w} {maxPacket : Int} {alloc : Bool}
    (he : d.startIsoPump maxPacket alloc = some d') : d'.Allocated := by
  unfold startIsoPump at he
  obtain ⟨-, he⟩ := Option.ite_none_left_eq_some.1 he
  obtain ⟨⟨plan, fifo⟩, hplan, rfl⟩ := Option.map_eq_some_iff.1 he
  intro i hi
  refine ⟨?_, ?_⟩
  · have hlen := initialPlan_length hplan
    rw [RationalPacketScheduler.nextN_length] at hlen
    show (List.map _ _).length = _
    rw [List.length_map, List.length_take, List.length_drop, hlen]
    have hle : (i + 1) * d.userspaceBufferConfig.packetsPerTransferAt d.pb.format.microframesPerSec ≤
        d.geometry.transferCount * d.userspaceBufferConfig.packetsPerTransferAt d.pb.format.microframesPerSec :=
      Nat.mul_le_mul_right _ hi
    rw [Nat.succ_mul] at hle
    exact Nat.min_eq_left (by omega)
  · rfl

/-! ### The initial submission -/

theorem primeTransfer_alloc (p offset : Nat) (rest : List Nat) (pb : Playback w) (x : Transfer) :
    (Playback.primeTransfer p offset rest (pb, x)).2.numIsoPackets = x.numIsoPackets ∧
    (Playback.primeTransfer p offset rest (pb, x)).2.bufferBytes = x.bufferBytes := by
  induction rest generalizing p offset pb x with
  | nil => exact ⟨rfl, rfl⟩
  | cons bytes rest ih =>
    obtain ⟨h₁, h₂⟩ := ih (p + 1) (offset + bytes) (pb.drainRing bytes).1
      ((x.storeAt offset (pb.drainRing bytes).2).setLength p (pb.drainRing bytes).2.length)
    exact ⟨h₁.trans (Transfer.numIsoPackets_setLength ..), h₂⟩

theorem primeOut_shape (i : Nat) : (d.primeOut i).shape = d.shape :=
  shape_eq_of_update rfl rfl rfl (congrArg Prod.fst (Playback.primeTransfer_eventSide ..)) rfl
    (primeTransfer_alloc ..).1 (primeTransfer_alloc ..).2

theorem submitFirst_shape {d' : Driver w} {ok : Xfer → Bool} {lengths : Xfer → List Nat} {x : Xfer}
    (he : d.submitFirst ok lengths x = some d') : d'.shape = d.shape := by
  unfold submitFirst at he
  split at he
  · cases x <;> cases he <;> rfl
  · cases he

theorem startPlayback_shape {d' : Driver w} {ok : Xfer → Bool} (he : d.startPlayback ok = some d') :
    d'.shape = d.shape := by
  unfold startPlayback submitIsoPump at he
  obtain ⟨-, he⟩ := Option.ite_none_left_eq_some.1 he
  obtain ⟨-, he⟩ := Option.ite_none_left_eq_some.1 he
  obtain ⟨-, he⟩ := Option.ite_none_left_eq_some.1 he
  obtain ⟨d₁, hsubmit, rfl⟩ := Option.map_eq_some_iff.1 he
  have hfill (d₀ : Driver w) (is : List Nat) : (is.foldl primeOut d₀).shape = d₀.shape :=
    run_invariant (I := fun d' : Driver w => d'.shape = d₀.shape) (fun _ i h => (primeOut_shape i).trans h) rfl is
  exact foldlM_rule (P := fun _ d' => d'.shape = d.shape) (fun _ _ _ _ h hx => (submitFirst_shape hx).trans h)
    (hfill _ _) hsubmit

/-- The OUT transfers of a session are those `startIsoPump` allocated, whatever happens before and after the
initial submission. -/
theorem session_allocated {d₂ d₃ : Driver w} {maxPacket : Int} {alloc : Bool} {ok : Xfer → Bool}
    (h₂ : d.startIsoPump maxPacket alloc = some d₂) (pre as : List DriverAct)
    (h₃ : (run step d₂ pre).startPlayback ok = some d₃) : (run step d₃ as).Allocated := by
  have hpre : (run step d₂ pre).Allocated := (startIsoPump_allocated h₂).of_shape (run_shape pre)
  exact (hpre.of_shape (startPlayback_shape h₃)).of_shape (run_shape as)

end Driver

end UacDriver

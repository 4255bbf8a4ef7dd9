import UacDriver.Rotation

/-!
# Implicit feedback: order, layout and whole packets

An OUT completion of an implicit-feedback sink is refilled at once, or it joins the pending list and is
released from a later capture completion. `OutRun` adds to the driver the history this is judged by: the OUT
completions that stay in rotation, every count pushed into the layout FIFO, and every overflow
resynchronisation. `Accounts` says that each FIFO index below the read cursor was taken once or dropped by a
resynchronisation; `Order` that submissions follow completions and that packet lengths are exactly the taken
counts.
-/

namespace UacDriver

open Runs

namespace MetaFifo

def resyncs : MetaFifo → List Nat → List (Nat × Nat)
  | _, [] => []
  | f, v :: vs => f.resync ++ resyncs (f.push v) vs

/-- What became of the indices from `first` on. -/
structure Accounts (f : MetaFifo) (first overruns : Nat) (pushed taken : List Nat) (drops : List (Nat × Nat)) :
    Prop where
  holds : f.Holds pushed
  sorted : taken.Pairwise (· < ·)
  taken_lt : ∀ k ∈ taken, first ≤ k ∧ k < f.implicitRead
  drops_lt : ∀ e ∈ drops, first ≤ e.1 ∧ e.1 < e.2 ∧ e.2 ≤ f.implicitRead
  cover : ∀ k, first ≤ k → k < f.implicitRead → k ∈ taken ∨ ∃ e ∈ drops, e.1 ≤ k ∧ k < e.2
  apart : ∀ k ∈ taken, ∀ e ∈ drops, k < e.1 ∨ e.2 ≤ k
  count : f.metadataFifoOverruns = overruns + drops.length
  first_le : first ≤ f.implicitRead

namespace Accounts

variable {f : MetaFifo} {first overruns : Nat} {pushed taken : List Nat} {drops : List (Nat × Nat)}

theorem push (h : f.Accounts first overruns pushed taken drops) (v : Nat) :
    (f.push v).Accounts first overruns (pushed ++ [v]) taken (drops ++ f.resync) := by
  have hle := h.holds.read_le
  have hfirst := h.first_le
  by_cases hfull : f.implicitWrite - f.implicitRead ≥ kImplicitFifoCapacity
  · have hroom : f.makeRoom =
        { f with implicitRead := f.implicitWrite, metadataFifoOverruns := f.metadataFifoOverruns + 1 } := if_pos hfull
    have hread : (f.push v).implicitRead = f.implicitWrite := by rw [push_read, hroom]
    have hover : (f.push v).metadataFifoOverruns = f.metadataFifoOverruns + 1 := by
      show f.makeRoom.metadataFifoOverruns = _
      rw [hroom]
    have hres : f.resync = [(f.implicitRead, f.implicitWrite)] := if_pos hfull
    have hlt : f.implicitRead < f.implicitWrite := by simp [kImplicitFifoCapacity] at hfull; omega
    rw [hres]
    refine ⟨h.holds.push v, h.sorted, fun k hk => ?_, fun e he => ?_, fun k h₁ h₂ => ?_, fun k hk e he => ?_, ?_, ?_⟩
    · have := h.taken_lt k hk
      rw [hread]; omega
    · rw [hread]
      rcases List.mem_append.1 he with he | he
      · have := h.drops_lt e he; omega
      · rw [List.mem_singleton.1 he]; exact ⟨hfirst, hlt, le_rfl⟩
    · rw [hread] at h₂
      rcases Nat.lt_or_ge k f.implicitRead with hk | hk
      · rcases h.cover k h₁ hk with ht | ⟨e, he, h₃⟩
        · exact .inl ht
        · exact .inr ⟨e, List.mem_append_left _ he, h₃⟩
      · exact .inr ⟨_, List.mem_append_right _ (List.mem_singleton_self _), hk, h₂⟩
    · rcases List.mem_append.1 he with he | he
      · exact h.apart k hk e he
      · rw [List.mem_singleton.1 he]; exact .inl (h.taken_lt k hk).2
    · rw [hover, h.count, List.length_append, List.length_singleton]; omega
    · rw [hread]; omega
  · have hroom : f.makeRoom = f := if_neg hfull
    have hread : (f.push v).implicitRead = f.implicitRead := by rw [push_read, hroom]
    have hover : (f.push v).metadataFifoOverruns = f.metadataFifoOverruns := by
      show f.makeRoom.metadataFifoOverruns = _
      rw [hroom]
    have hres : f.resync = [] := if_neg hfull
    rw [hres, List.append_nil]
    exact ⟨h.holds.push v, h.sorted, hread ▸ h.taken_lt, hread ▸ h.drops_lt, hread ▸ h.cover, h.apart,
      hover ▸ h.count, hread ▸ hfirst⟩

theorem pushAll (h : f.Accounts first overruns pushed taken drops) (vs : List Nat) :
    (vs.foldl MetaFifo.push f).Accounts first overruns (pushed ++ vs) taken (drops ++ f.resyncs vs) := by
  induction vs generalizing f pushed drops with
  | nil => simpa [resyncs] using h
  | cons v vs ih => simpa [resyncs] using ih (h.push v)

theorem take (h : f.Accounts first overruns pushed taken drops) {count : Nat}
    (hc : f.implicitRead + count ≤ f.implicitWrite) :
    (f.take count).Accounts first overruns pushed (taken ++ List.range' f.implicitRead count) drops := by
  have hread : (f.take count).implicitRead = f.implicitRead + count := rfl
  have hfirst := h.first_le
  refine ⟨h.holds.take hc, ?_, fun k hk => ?_, fun e he => ?_, fun k h₁ h₂ => ?_, fun k hk e he => ?_, h.count, ?_⟩
  · refine List.pairwise_append.2 ⟨h.sorted, List.pairwise_lt_range', fun a ha b hb => ?_⟩
    have h₁ := (h.taken_lt a ha).2
    have h₂ := (List.mem_range'_1.1 hb).1
    omega
  · rw [hread]
    rcases List.mem_append.1 hk with hk | hk
    · have := h.taken_lt k hk; omega
    · have := List.mem_range'_1.1 hk; omega
  · rw [hread]
    have := h.drops_lt e he; omega
  · rw [hread] at h₂
    rcases Nat.lt_or_ge k f.implicitRead with hk | hk
    · rcases h.cover k h₁ hk with ht | hd
      · exact .inl (List.mem_append_left _ ht)
      · exact .inr hd
    · exact .inl (List.mem_append_right _ (List.mem_range'_1.2 ⟨hk, h₂⟩))
  · rcases List.mem_append.1 hk with hk | hk
    · exact h.apart k hk e he
    · have h₁ := (h.drops_lt e he).2.2
      have h₂ := (List.mem_range'_1.1 hk).1
      exact .inr (by omega)
  · rw [hread]; omega

end Accounts

end MetaFifo

/-! ### Whole packets -/

namespace Driver

variable {w : Nat} {d : Driver w}

@[simp] theorem takeAndRefill_format (i : Nat) : (d.takeAndRefill i).pb.format = d.pb.format :=
  congrArg Prod.fst (refill_eventSide ..)

theorem implicitMode_of_eq (h : d.implicitMode = true) {d' : Driver w}
    (ha : d'.cap.captureActive = d.cap.captureActive) (hc : d'.cap.format = d.cap.format)
    (hp : d'.pb.format = d.pb.format) : d'.implicitMode = true := by
  simpa only [implicitMode, implicitFormat, ha, hc, hp] using h

/-- A transfer that passes the tests is filled to its plan, packet for packet. -/
theorem takeAndRefill_lengths {i : Nat} (hc : d.canPrepare i = true) :
    ((d.takeAndRefill i).transfers i).lengths = (d.implicitPlan i).map (· * d.stride) := by
  have hpcm : (d.implicitPlan i).sum * d.stride ≤ d.pb.ring.used := by
    simp only [canPrepare, noPcm, Bool.and_eq_true, Bool.not_eq_true', decide_eq_false_iff_not, not_lt] at hc
    have hle := hc.2
    unfold Playback.bufferedFrames at hle
    split at hle
    · rw [Nat.le_zero.1 hle]; simp
    · exact (Nat.le_div_iff_mul_le (Nat.pos_of_ne_zero (by assumption))).1 hle
  have hlen : (d.implicitPlan i).length = (d.pb, d.transfers i).2.numIsoPackets := by
    simp [implicitPlan, MetaFifo.frameCounts]
  obtain ⟨hexact, -⟩ := drainAll_exact Playback.drainPacket (fun pb : Playback w => pb.ring.used) (fun _ _ => True)
    (fun p frames _ pb _ hb => by
      have hcount : pb.drainCount (frames * d.stride) = frames * d.stride := Nat.min_eq_right hb
      refine ⟨trivial, (Playback.drainRing_length _).trans hcount, ?_⟩
      show pb.ring.used ≤ (pb.drainRing _).1.ring.used + _
      rw [Playback.drainRing_used, hcount]
      omega) 0 (n := 0) trivial hpcm
  show (Function.update d.transfers i _ i).lengths = _
  rw [Function.update_self, refill_lengths _ _ hlen, hexact]

theorem implicitPlan_eq {i : Nat} {pushed : List Nat} (h : d.fifo.Holds pushed)
    (hw : d.fifo.implicitRead + (d.transfers i).numIsoPackets ≤ d.fifo.implicitWrite) :
    d.implicitPlan i = (List.range' d.fifo.implicitRead (d.transfers i).numIsoPackets).map fun k =>
      min (pushed.getD k 0) d.pacing.maxFramesPerPacket := by
  rw [implicitPlan, MetaFifo.frameCounts, List.range'_eq_map_range, List.map_map]
  refine List.map_congr_left fun p hp => ?_
  have hp' := List.mem_range.1 hp
  have hentry := h.entries (d.fifo.implicitRead + p) (by omega) (by omega)
  simp [List.getD_eq_getElem?_getD, hentry]

theorem metadata_of_canPrepare {i : Nat} (hc : d.canPrepare i = true) :
    d.fifo.implicitRead + (d.transfers i).numIsoPackets ≤ d.fifo.implicitWrite := by
  simp only [canPrepare, noMetadata, Bool.and_eq_true, Bool.not_eq_true', Bool.or_eq_false_iff,
    decide_eq_false_iff_not, not_lt] at hc
  omega

def pushes (d : Driver w) (x : Transfer) : List Nat := (x.received d.cap.stride).map (packetFrames d.cap.stride)

/-! ### Order -/

/-- The frames the packet sized from FIFO index `k` carries, in bytes. -/
def packetBytesOf (d : Driver w) (pushed : List Nat) (k : Nat) : Nat :=
  min (pushed.getD k 0) d.pacing.maxFramesPerPacket * d.stride

/-- The state of the implicit pump against its history; `pend` are the transfers still pending. -/
structure Order (d : Driver w) (first overruns : Nat) (completed pushed : List Nat) (drops : List (Nat × Nat))
    (pend : List Nat) : Prop where
  fifo : d.fifo.Accounts first overruns pushed d.taken drops
  order : completed = d.outSubmits.map Prod.fst ++ pend
  lengths : d.outSubmits.flatMap Prod.snd = d.taken.map (d.packetBytesOf pushed)
  mode : d.stopRequested = false → d.implicitMode = true

namespace Order

variable {first overruns : Nat} {completed pushed : List Nat} {drops : List (Nat × Nat)} {pend : List Nat}

theorem congr (h : d.Order first overruns completed pushed drops pend) {d' : Driver w} (hf : d'.fifo = d.fifo)
    (ht : d'.taken = d.taken) (hs : d'.outSubmits = d.outSubmits)
    (hp : d'.pacing.maxFramesPerPacket = d.pacing.maxFramesPerPacket) (hfmt : d'.pb.format = d.pb.format)
    (hm : d'.stopRequested = false → d'.implicitMode = true) :
    d'.Order first overruns completed pushed drops pend := by
  refine ⟨hf ▸ ht ▸ h.fifo, hs ▸ h.order, ?_, hm⟩
  have hb : d'.packetBytesOf pushed = d.packetBytesOf pushed := by
    funext k; simp only [packetBytesOf, hp, stride, Playback.stride, hfmt]
  rw [hs, ht, hb]; exact h.lengths

theorem setPlayback (h : d.Order first overruns completed pushed drops pend) {pb : Playback w}
    (hfmt : pb.format = d.pb.format) : Order { d with pb } first overruns completed pushed drops pend :=
  h.congr rfl rfl rfl rfl hfmt fun hs => implicitMode_of_eq (h.mode hs) rfl rfl hfmt

theorem failOut (h : d.Order first overruns completed pushed drops pend) :
    d.failOut.Order first overruns completed pushed drops pend :=
  h.congr rfl rfl rfl rfl rfl fun hs => Bool.noConfusion hs

/-- Taking the layout, refilling and submitting transfer `i`, the next in line. -/
theorem submitTaken {i : Nat} (h : d.Order first overruns completed pushed drops (i :: pend))
    (hc : d.canPrepare i = true) (d' : Driver w) (hf : d'.fifo = (d.takeAndRefill i).fifo)
    (ht : d'.taken = (d.takeAndRefill i).taken)
    (hs : d'.outSubmits = d.outSubmits ++ [(i, ((d.takeAndRefill i).transfers i).lengths)])
    (hp : d'.pacing.maxFramesPerPacket = d.pacing.maxFramesPerPacket) (hfmt : d'.pb.format = d.pb.format)
    (hm : d'.stopRequested = false → d'.implicitMode = true) :
    d'.Order first overruns completed pushed drops pend := by
  have hw := metadata_of_canPrepare hc
  refine ⟨?_, ?_, ?_, hm⟩
  · rw [hf, ht]; exact h.fifo.take hw
  · rw [hs, h.order]; simp
  · have hb : d'.packetBytesOf pushed = d.packetBytesOf pushed := by
      funext k; simp only [packetBytesOf, hp, stride, Playback.stride, hfmt]
    rw [hs, ht, hb, List.flatMap_append, h.lengths]
    show _ = (d.taken ++ List.range' _ _).map _
    rw [List.map_append]
    congr 1
    simp only [List.flatMap_cons, List.flatMap_nil, List.append_nil, takeAndRefill_lengths hc,
      implicitPlan_eq h.fifo.holds hw, List.map_map]
    rfl

/-! ### OUT completions -/

theorem creditOut (h : d.Order first overruns completed pushed drops pend) (i : Nat) :
    ((d.completeOut i).creditOut i).Order first overruns completed pushed drops pend := by
  have hfmt : ((d.completeOut i).creditOut i).pb.format = d.pb.format := by
    simp only [Driver.creditOut]; split <;> rfl
  exact h.congr rfl rfl rfl rfl hfmt fun hs => implicitMode_of_eq (h.mode hs) rfl rfl hfmt

/-- An OUT completion with successful submits: the transfer goes to the end of the line, or the line is empty
and it is submitted. -/
theorem onIso {L : Finset Nat} (hL : L.card ≤ kMaxTransferCount) {i : Nat} (hserve : d.rotation.Serving L (.out i))
    (h : d.Order first overruns completed pushed drops d.pending) {ok : Xfer → Bool} (hok : ∀ x, ok x = true) :
    (d.onIso i ok).Order first overruns (if d.keeps i then completed ++ [i] else completed) pushed drops
      (d.onIso i ok).pending := by
  refine onIso_rule (P := fun d' => d'.Order first overruns (if d.keeps i then completed ++ [i] else completed)
    pushed drops d'.pending) ?_ ?_ ?_ ?_ ?_
  · intro hr
    have hk : d.keeps i = false := by simp [keeps, hr]
    rw [if_neg (by simp [hk])]
    exact h.congr rfl rfl rfl rfl rfl h.mode
  · intro _ hn
    have hk : d.keeps i = false := by simp [keeps, hn]
    rw [if_neg (by simp [hk])]
    exact h.congr rfl rfl rfl rfl rfl fun hs => Bool.noConfusion hs
  · intro hk _ _ stats
    rw [if_pos hk]
    have hroom : (((d.completeOut i).creditOut i).withStats stats).pending.length < kMaxTransferCount :=
      hserve.pending_length.trans_le hL
    have h' := h.creditOut i
    unfold deferTransfer
    rw [if_pos hroom]
    refine ⟨h'.fifo, ?_, h'.lengths, h'.mode⟩
    show completed ++ [i] = d.outSubmits.map Prod.fst ++ (d.pending ++ [i])
    rw [h.order, List.append_assoc]
  · intro hk _ hpend hc
    rw [if_pos hk, hok]
    -- the line is empty: this completion is the next to be submitted
    have hnext : d.Order first overruns (completed ++ [i]) pushed drops [i] :=
      ⟨h.fifo, by rw [h.order, hpend]; simp, h.lengths, h.mode⟩
    have h' := (hnext.creditOut i).submitTaken (by rw [canPrepare_creditOut]; exact hc)
      ((((d.completeOut i).creditOut i).takeAndRefill i).resubmitOut i true true) rfl rfl
      (by simp [resubmitOut, queueSubmitted, outSubmits, submit, Usb.submit]; rfl) rfl (takeAndRefill_format i)
      (fun hs => implicitMode_of_eq ((hnext.creditOut i).mode hs) rfl rfl (takeAndRefill_format i))
    have hpend' : ((((d.completeOut i).creditOut i).takeAndRefill i).resubmitOut i true true).pending = [] := hpend
    rw [hpend']
    exact h'
  · intro hk hm
    rw [h.mode (stopRequested_of_keeps hk)] at hm
    cases hm

/-! ### Capture completions -/

theorem onFeedback {k : Nat} (h : d.Order first overruns completed pushed drops pend) (x : Transfer)
    (ok : Xfer → Bool) : (d.onFeedback k x ok).Order first overruns completed pushed drops pend := by
  have hnote : (d.noteFeedback x).Order first overruns completed pushed drops pend := by
    unfold noteFeedback
    split
    · split
      · unfold acceptFeedback
        dsimp only
        split
        · exact h.congr rfl rfl rfl rfl rfl h.mode
        · exact h
      · exact h.congr rfl rfl rfl rfl rfl h.mode
    · exact h.congr rfl rfl rfl rfl rfl h.mode
  have hsub (b : Bool) : ((d.noteFeedback x).submit (.feedback k) b x.lengths).Order first overruns completed pushed
      drops pend :=
    hnote.congr rfl rfl (by cases b <;> simp [outSubmits, submit, Usb.submit]) rfl rfl hnote.mode
  refine onFeedback_rule (P := fun d' => d'.Order first overruns completed pushed drops pend)
    (h.congr rfl rfl rfl rfl rfl h.mode) h.failOut (fun _ _ => hsub true) (fun _ _ => (hsub false).failOut)

theorem receiveCapture (h : d.Order first overruns completed pushed drops pend) (hf : d.implicitFormat = true)
    (x : Transfer) :
    (d.receiveCapture x).Order first overruns completed (pushed ++ d.pushes x) (drops ++ d.fifo.resyncs (d.pushes x))
      pend := by
  have hfifo : (d.receiveCapture x).fifo = (d.pushes x).foldl MetaFifo.push d.fifo := if_pos hf
  refine ⟨?_, h.order, ?_, fun hs => ?_⟩
  · rw [hfifo]; exact h.fifo.pushAll _
  · show d.outSubmits.flatMap Prod.snd = d.taken.map _
    rw [h.lengths]
    refine List.map_congr_left fun k hk => ?_
    -- an index taken was pushed before
    have hlt : k < pushed.length := by
      have h₁ := (h.fifo.taken_lt k hk).2
      have h₂ := h.fifo.holds.read_le
      have h₃ := h.fifo.holds.write_eq
      omega
    show min (pushed.getD k 0) _ * _ = min ((pushed ++ d.pushes x).getD k 0) _ * _
    rw [List.getD_eq_getElem?_getD, List.getD_eq_getElem?_getD, List.getElem?_append_left hlt]
    rfl
  · exact implicitMode_of_eq (h.mode hs) (Capture.receive_active _) (Capture.receive_format _) rfl

theorem submitPendingImplicitTransfers (h : d.Order first overruns completed pushed drops d.pending)
    {ok : Xfer → Bool} (hok : ∀ x, ok x = true) :
    (d.submitPendingImplicitTransfers ok).Order first overruns completed pushed drops
      (d.submitPendingImplicitTransfers ok).pending := by
  have hloop := submitPending_rule ok
    (P := fun d rest => d.Order first overruns completed pushed drops rest)
    (Q := fun d rest => d.Order first overruns completed pushed drops rest)
    (fun _ h => h) (fun _ _ _ _ h _ => h.congr rfl rfl rfl rfl rfl h.mode) ?_ ?_ d d.pending h
  · exact hloop.congr rfl rfl rfl rfl rfl hloop.mode
  · intro d i rest _ _ hno
    rw [hok] at hno; cases hno
  · intro d i rest h hc _
    exact h.submitTaken hc _ rfl rfl (by simp [queueSubmitted, submitPrepared, outSubmits, submit, Usb.submit]; rfl) rfl
      (takeAndRefill_format i)
      (fun hs => implicitMode_of_eq (h.mode hs) rfl rfl (takeAndRefill_format i))

theorem onCapture {j : Nat} (h : d.Order first overruns completed pushed drops d.pending) (x : Transfer)
    {ok : Xfer → Bool} (hok : ∀ x, ok x = true) :
    (d.onCapture j x ok).Order first overruns completed (if d.accepts x then pushed ++ d.pushes x else pushed)
      (if d.accepts x then drops ++ d.fifo.resyncs (d.pushes x) else drops) (d.onCapture j x ok).pending := by
  have hrel (ha : d.accepts x = true) :
      ((d.receiveCapture x).submitPendingImplicitTransfers ok).Order first overruns completed
        (if d.accepts x then pushed ++ d.pushes x else pushed)
        (if d.accepts x then drops ++ d.fifo.resyncs (d.pushes x) else drops)
        ((d.receiveCapture x).submitPendingImplicitTransfers ok).pending := by
    have hm := h.mode (accepts_flags ha).2
    simp only [implicitMode, Bool.and_eq_true] at hm
    rw [if_pos ha, if_pos ha]
    exact (h.receiveCapture hm.2 x).submitPendingImplicitTransfers hok
  refine onCapture_rule (P := fun d' => d'.Order first overruns completed
    (if d.accepts x then pushed ++ d.pushes x else pushed)
    (if d.accepts x then drops ++ d.fifo.resyncs (d.pushes x) else drops) d'.pending) ?_ ?_ ?_ ?_ ?_
  · intro ha
    rw [if_neg (by simp [ha]), if_neg (by simp [ha])]
    exact h.congr rfl rfl rfl rfl rfl h.mode
  · intro ha
    rw [if_neg (by simp [ha]), if_neg (by simp [ha])]
    exact h.congr rfl rfl rfl rfl rfl fun hs => Bool.noConfusion hs
  · exact fun ha => (hrel ha).congr rfl rfl rfl rfl rfl (hrel ha).mode
  · exact fun ha _ =>
      (hrel ha).congr rfl rfl (by simp [outSubmits, submit, Usb.submit, wakeCapture]) rfl rfl (hrel ha).mode
  · intro _ hno
    rw [hok] at hno; cases hno

end Order

end Driver

/-! ### Whole runs -/

structure OutRun (w : Nat) where
  drv : Driver w
  /-- OUT completions that stay in rotation, in order. -/
  completed : List Nat := []
  /-- Every count pushed into the layout FIFO of the session. -/
  pushed : List Nat := []
  /-- Index ranges dropped by overflow resynchronisations. -/
  drops : List (Nat × Nat) := []

def DriverAct.SubmitsSucceed : DriverAct → Prop
  | outDone _ _ _ ok | feedbackDone _ _ ok | captureDone _ _ ok => ∀ x, ok x = true
  | _ => True

namespace OutRun

variable {w : Nat}

def step (s : OutRun w) (a : DriverAct) : OutRun w :=
  match a with
  | .outDone i status results _ =>
    { s with
      drv := s.drv.step a
      completed :=
        if .out i ∈ s.drv.usb.owned ∧ (s.drv.deliverOut i status results).keeps i then s.completed ++ [i]
        else s.completed }
  | .captureDone j x _ =>
    if .capture j ∈ s.drv.usb.owned ∧ s.drv.accepts x then
      { s with
        drv := s.drv.step a
        pushed := s.pushed ++ s.drv.pushes x
        drops := s.drops ++ s.drv.fifo.resyncs (s.drv.pushes x) }
    else { s with drv := s.drv.step a }
  | _ => { s with drv := s.drv.step a }

structure Inv (L : Finset Nat) (first overruns : Nat) (s : OutRun w) : Prop where
  rotation : s.drv.rotation.Ok L
  order : s.drv.Order first overruns s.completed s.pushed s.drops s.drv.pending

theorem step_drv (s : OutRun w) (a : DriverAct) : (s.step a).drv = s.drv.step a := by
  cases a with
  | captureDone j x ok => simp only [step]; split <;> rfl
  | _ => rfl

theorem Inv.step {L : Finset Nat} (hL : L.card ≤ kMaxTransferCount) {first overruns : Nat} {s : OutRun w}
    (h : s.Inv L first overruns) (a : DriverAct) (ha : a.SubmitsSucceed) : (s.step a).Inv L first overruns := by
  refine ⟨by rw [step_drv]; exact Driver.step_ok hL h.rotation a, ?_⟩
  have hord := h.order
  cases a with
  | outDone i status results ok =>
    simp only [OutRun.step, Driver.step]
    by_cases hi : .out i ∈ s.drv.usb.owned
    · rw [if_pos hi]
      have hdel : (s.drv.deliverOut i status results).Order first overruns s.completed s.pushed s.drops
          (s.drv.deliverOut i status results).pending := hord.congr rfl rfl rfl rfl rfl hord.mode
      have hserve : (s.drv.deliverOut i status results).rotation.Serving L (.out i) := h.rotation.release hi
      have hiso := hdel.onIso hL hserve ha
      by_cases hk : (s.drv.deliverOut i status results).keeps i = true
      · rw [if_pos hk] at hiso
        rw [if_pos ⟨hi, hk⟩]; exact hiso
      · rw [if_neg hk] at hiso
        rw [if_neg fun hh => hk hh.2]; exact hiso
    · rw [if_neg hi, if_neg fun hh => hi hh.1]; exact hord
  | captureDone j x ok =>
    by_cases hj : .capture j ∈ s.drv.usb.owned
    · have hrel : (s.drv.release (.capture j)).Order first overruns s.completed s.pushed s.drops
          (s.drv.release (.capture j)).pending := hord.congr rfl rfl rfl rfl rfl hord.mode
      have hcap := hrel.onCapture (j := j) x ha
      have hstep : s.drv.step (.captureDone j x ok) = (s.drv.release (.capture j)).onCapture j x ok := if_pos hj
      by_cases hacc : s.drv.accepts x = true
      · have hacc' : (s.drv.release (.capture j)).accepts x = true := hacc
        rw [if_pos hacc', if_pos hacc'] at hcap
        simp only [OutRun.step, if_pos (And.intro hj hacc), hstep]
        exact hcap
      · have hacc' : ¬ (s.drv.release (.capture j)).accepts x = true := hacc
        rw [if_neg hacc', if_neg hacc'] at hcap
        simp only [OutRun.step, if_neg fun hh : _ ∧ _ => hacc hh.2, hstep]
        exact hcap
    · simp only [OutRun.step, if_neg fun hh : _ ∧ _ => hj hh.1, Driver.step, if_neg hj]
      exact hord
  | feedbackDone k x ok =>
    simp only [OutRun.step, Driver.step]
    split
    · have hrel : (s.drv.release (.feedback k)).Order first overruns s.completed s.pushed s.drops s.drv.pending :=
        hord.congr rfl rfl rfl rfl rfl hord.mode
      have hpend : ((s.drv.release (.feedback k)).onFeedback k x ok).pending = s.drv.pending := by
        refine Driver.onFeedback_rule (P := fun d' => d'.pending = s.drv.pending) rfl rfl (fun _ _ => ?_) (fun _ _ => ?_)
        · exact congrArg Rotation.pending (Driver.noteFeedback_rotation (d := s.drv.release (.feedback k)) x)
        · exact congrArg Rotation.pending (Driver.noteFeedback_rotation (d := s.drv.release (.feedback k)) x)
      rw [hpend]
      exact hrel.onFeedback x ok
    · exact hord
  | requestStop => exact hord.congr rfl rfl rfl rfl rfl fun hs => Bool.noConfusion hs
  | readCapturePcm frames =>
    exact hord.congr rfl rfl rfl rfl rfl fun hs =>
      Driver.implicitMode_of_eq (hord.mode hs) (Capture.readCapturePcm_active _ _)
        (Capture.readCapturePcm_format _ _) rfl
  | writePcm data frames => exact hord.setPlayback (congrArg Prod.fst (Playback.writePcm_eventSide data frames))
  | submitQuantum accepting policy frames packed charge =>
    exact hord.setPlayback (congrArg Prod.fst (Playback.submitQuantum_eventSide _ accepting policy frames packed charge))
  | takePlaybackCredit frames =>
    exact hord.setPlayback (congrArg Prod.fst (Playback.takePlaybackCredit_eventSide frames))
  | chargePlaybackCredit frames =>
    exact hord.setPlayback (congrArg Prod.fst (Playback.chargePlaybackCredit_eventSide frames))
  | discardCaptureFrames _ => exact hord.congr rfl rfl rfl rfl rfl hord.mode
  | beginCaptureLive _ => exact hord.congr rfl rfl rfl rfl rfl hord.mode
  | setPolicy _ _ _ _ => exact hord.setPlayback rfl
  | registerPlayback => exact hord.congr rfl rfl rfl rfl rfl hord.mode
  | unregisterPlayback => exact hord.congr rfl rfl rfl rfl rfl hord.mode
  | registerCapture => exact hord.congr rfl rfl rfl rfl rfl hord.mode
  | unregisterCapture => exact hord.congr rfl rfl rfl rfl rfl hord.mode

end OutRun

/-- The implicit pump over every session with successful submits. Submissions are the completions that stay in
rotation, in order, with the rest still pending. The FIFO indices taken strictly increase; every index from
the first one on is either taken or in a range dropped by a counted resynchronisation, never both. And the
packets submitted, in order, have exactly the lengths of the entries taken, clamped to the packet limit. -/
theorem implicit_pump_order {w : Nat} (c : UserspaceBufferConfig) (hc : c.accepted = true) (d : Driver w)
    (feedbacks captures : Nat) (hactive : d.cap.captureActive = true) (himplicit : d.implicitFormat = true)
    (pushed : List Nat) (hfifo : d.fifo.Holds pushed)
    (as : List DriverAct) (has : ∀ a ∈ as, a.SubmitsSucceed) :
    let s := run OutRun.step { drv := d.submitted c.resolvedTransferCount feedbacks captures, pushed } as
    s.completed = s.drv.outSubmits.map Prod.fst ++ s.drv.pending ∧
    s.drv.taken.Pairwise (· < ·) ∧
    (∀ k, d.fifo.implicitRead ≤ k → k < s.drv.fifo.implicitRead →
      k ∈ s.drv.taken ∨ ∃ e ∈ s.drops, e.1 ≤ k ∧ k < e.2) ∧
    (∀ k ∈ s.drv.taken, d.fifo.implicitRead ≤ k ∧ ∀ e ∈ s.drops, k < e.1 ∨ e.2 ≤ k) ∧
    s.drv.fifo.metadataFifoOverruns = d.fifo.metadataFifoOverruns + s.drops.length ∧
    s.drv.outSubmits.flatMap Prod.snd =
      s.drv.taken.map fun k => min (s.pushed.getD k 0) s.drv.pacing.maxFramesPerPacket * s.drv.stride := by
  intro s
  have hL : (Finset.range c.resolvedTransferCount).card ≤ kMaxTransferCount := by
    rw [Finset.card_range]; exact c.resolvedTransferCount_le hc
  have h₀ : OutRun.Inv (Finset.range c.resolvedTransferCount) d.fifo.implicitRead d.fifo.metadataFifoOverruns
      { drv := d.submitted c.resolvedTransferCount feedbacks captures, pushed } := by
    refine ⟨d.submitted_ok _ _ _, ⟨⟨hfifo, .nil, nofun, nofun, fun k h₁ h₂ => absurd h₂ (by
      show ¬ k < d.fifo.implicitRead; omega), nofun, rfl, le_rfl⟩, rfl, rfl, fun _ => ?_⟩⟩
    show (d.cap.captureActive && d.implicitFormat) = true
    rw [hactive, himplicit]; rfl
  have hmeets : Meets OutRun.step (fun _ a => a.SubmitsSucceed)
      { drv := d.submitted c.resolvedTransferCount feedbacks captures, pushed } as := .of_forall has _
  have h : s.Inv _ d.fifo.implicitRead d.fifo.metadataFifoOverruns :=
    hmeets.invariant (I := OutRun.Inv _ _ _) (fun s a ha hs => hs.step hL a ha) h₀
  have hf := h.order.fifo
  exact ⟨h.order.order, hf.sorted, hf.cover, fun k hk => ⟨(hf.taken_lt k hk).1, hf.apart k hk⟩, hf.count,
    h.order.lengths⟩

/-- Two OUT transfers of one packet complete before any capture packet has arrived; one capture completion then
releases both, oldest first, with its two packets of 2 and 1 frames. -/
theorem implicit_pump_order_released :
    ∃ d : Driver 64, ∃ as : List DriverAct,
      let s := run OutRun.step { drv := d.submitted 2 0 1 } as
      s.completed = [1, 0] ∧ s.drv.taken = [0, 1] ∧ s.drv.outSubmits = [(1, [8]), (0, [4])] ∧
      s.completed = s.drv.outSubmits.map Prod.fst ++ s.drv.pending := by
  let z : RingSize 64 := .smallest
  let d : Driver 64 :=
    { pb := { ring := Ring.assign z, format := { channels := 2, bytesPerSample := 2 } }
      cap := {
        ring := Ring.assign z, captureActive := true
        format := { channels := 2, bytesPerSample := 2, implicitFeedback := true } }
      pacing := { maxFramesPerPacket := 3 }
      transfers := fun _ => { packets := [{}] } }
  let as : List DriverAct :=
    [.outDone 1 .completed [] fun _ => true, .outDone 0 .completed [] fun _ => true, .writePcm [] 4,
      .captureDone 0 { packets := [{ length := 12, actualLength := 8 }, { length := 12, actualLength := 4 }] }
        fun _ => true]
  have has : ∀ a ∈ as, a.SubmitsSucceed := by simp [as, DriverAct.SubmitsSucceed]
  have hcount : UserspaceBufferConfig.resolvedTransferCount { transferCount := 2 } = 2 := rfl
  have h := implicit_pump_order { transferCount := 2 } (by decide) d 0 1 rfl rfl [] (.reset _) as has
  rw [hcount] at h
  exact ⟨d, as, by decide, by decide, by decide, h.1⟩

end UacDriver

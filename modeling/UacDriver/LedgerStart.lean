import UacDriver.Ledger

/-!
# The ledger from a fresh driver on

`Idle` holds from the session reset until `startPlayback`: nothing of the playback side is submitted, and what
was written is in the ring. The initial submission first drains every transfer and then submits them, so the
frames are held between the two loops. From there on the run invariant of the ledger takes over.
-/

namespace UacDriver

open Circular Cursor Runs

namespace Driver

variable {w : Nat} {d d' : Driver w}

/-- A driver that no session has run on, configured by `c`. -/
structure Fresh (d : Driver w) (c : UserspaceBufferConfig) : Prop where
  config : d.userspaceBufferConfig = c
  transferCount : d.geometry.transferCount = c.resolvedTransferCount
  queued : d.pb.queuedOutFrames = 0
  owned : d.usb.owned = ∅
  inflight : d.inflight = 0
  captureInflight : d.captureInflight = 0
  pending : d.pending = []
  outCount : d.outCount = 0
  transfers : ∀ i, (d.transfers i).packets = []

structure Idle (d : Driver w) : Prop where
  balanced : d.pb.Balanced 0 0 0
  queued : d.pb.queuedOutFrames = 0
  unstarted : d.pb.playbackStarted = false
  pending : d.pending = []
  rotation : d.rotation.Ok ∅
  captures : ∀ x ∈ d.usb.owned, x.isPlayback = false
  whole : ∀ i, ∀ n ∈ (d.transfers i).lengths, d.stride ∣ n
  transferCount : d.geometry.transferCount ≤ kMaxTransferCount
  outCount : d.outCount ≤ kMaxTransferCount

namespace Idle

theorem start {c : UserspaceBufferConfig} (hc : c.accepted = true) (h : d.Fresh c) (format : StreamFormat) :
    (d.start format).Idle := by
  have hused : (d.start format).pb.ring.used = 0 := Cursor.dist_self _
  have hnone : ∀ x, x ∉ d.usb.owned := fun x => by rw [h.owned]; exact Finset.notMem_empty x
  refine ⟨⟨?_, ?_, ?_, ?_, rfl⟩, h.queued, rfl, h.pending, ?_, fun x hx => absurd hx (hnone x), ?_, ?_, ?_⟩
  · rw [hused]; exact Nat.zero_le _
  · rw [hused]; exact Nat.dvd_zero _
  · rw [Playback.bufferedFrames_eq, hused, Nat.zero_div]
    exact h.queued.symm ▸ rfl
  · exact h.queued.symm ▸ rfl
  · refine ⟨⟨?_, ?_, ?_, fun i hi => absurd hi (hnone _), nofun⟩, ?_, ?_⟩
    · show d.pending.Nodup
      rw [h.pending]; exact List.nodup_nil
    · intro i hi; exact absurd (h.pending ▸ hi : i ∈ []) List.not_mem_nil
    · intro i hi; exact absurd (h.pending ▸ hi : i ∈ []) List.not_mem_nil
    · simp [Driver.rotation, Rotation.playbackOwned, Driver.start, h.owned, h.inflight]
    · simp [Driver.rotation, Rotation.captureOwned, Driver.start, h.owned, h.captureInflight]
  · intro i n hn
    simp [Driver.start, Transfer.lengths, h.transfers i] at hn
  · show d.geometry.transferCount ≤ _
    rw [h.transferCount]; exact c.resolvedTransferCount_le hc
  · show d.outCount ≤ _
    rw [h.outCount]; exact Nat.zero_le _

/-- What `Idle` is about, but for the playback state and what libusb owns. -/
def outSide (d : Driver w) : List Nat × (Nat → Transfer) × Nat × Nat :=
  (d.pending, d.transfers, d.geometry.transferCount, d.outCount)

theorem congr (h : d.Idle) (hb : d'.pb.Balanced 0 0 0) (hside : d'.pb.eventSide = d.pb.eventSide)
    (hout : outSide d' = outSide d) (hrot : d'.rotation.Ok ∅) (howned : ∀ x ∈ d'.usb.owned, x.isPlayback = false) :
    d'.Idle := by
  have hstride : d'.stride = d.stride := congrArg (fun e => e.1.frameStride) hside
  have htransfers : d'.transfers = d.transfers := congrArg (fun e => e.2.1) hout
  refine ⟨hb, (congrArg (fun e => e.2.1) hside).trans h.queued, (congrArg (fun e => e.2.2) hside).trans h.unstarted,
    (congrArg (fun e => e.1) hout).trans h.pending, hrot, howned, ?_, ?_, ?_⟩
  · rw [htransfers, hstride]; exact h.whole
  · exact (congrArg (fun e => e.2.2.1) hout).trans_le h.transferCount
  · exact (congrArg (fun e => e.2.2.2) hout).trans_le h.outCount

theorem submitPendingImplicitTransfers_nil (h : d.pending = []) (ok : Xfer → Bool) :
    d.submitPendingImplicitTransfers ok = d := by
  simp only [submitPendingImplicitTransfers, h, submitPending]
  cases d
  simp_all

/-- A capture completion before playback has started leaves the playback side alone. -/
theorem onCapture_idle {j : Nat} (hpending : d.pending = []) (hcap : ∀ y ∈ d.usb.owned, y.isPlayback = false)
    (x : Transfer) (ok : Xfer → Bool) :
    let d' := d.onCapture j x ok
    d'.pb = d.pb ∧ outSide d' = outSide d ∧ ∀ y ∈ d'.usb.owned, y.isPlayback = false := by
  have hnone : (d.receiveCapture x).submitPendingImplicitTransfers ok = d.receiveCapture x :=
    submitPendingImplicitTransfers_nil (d := d.receiveCapture x) hpending ok
  have hins : ∀ y ∈ insert (Xfer.capture j) d.usb.owned, y.isPlayback = false := by
    intro y hy
    rcases Finset.mem_insert.1 hy with rfl | hy
    · rfl
    · exact hcap y hy
  refine onCapture_rule (P := fun d' => d'.pb = d.pb ∧ outSide d' = outSide d ∧ ∀ y ∈ d'.usb.owned, y.isPlayback = false)
    (fun _ => ⟨rfl, rfl, hcap⟩) (fun _ => ⟨rfl, rfl, hcap⟩) (fun _ => ?_) (fun _ _ => ?_) (fun _ _ => ?_)
  · rw [hnone]; exact ⟨rfl, rfl, hcap⟩
  · rw [hnone]; exact ⟨rfl, rfl, hins⟩
  · rw [hnone]; exact ⟨rfl, rfl, hcap⟩

theorem step (h : d.Idle) (a : DriverAct) : (d.step a).Idle := by
  have hok : (d.step a).rotation.Ok ∅ := step_ok (by simp) h.rotation a
  -- before the start nothing is charged
  have hfree {n : Int} (hn : n = 0) {p : Playback w} (hb : p.Balanced 0 0 (0 + n)) : p.Balanced 0 0 0 := by
    rw [hn] at hb; exact hb
  have hun := h.unstarted
  cases a with
  | outDone i status results ok =>
    have hi : .out i ∉ d.usb.owned := fun hi => Bool.noConfusion (h.captures _ hi)
    simp only [Driver.step, if_neg hi]
    exact h
  | feedbackDone k x ok =>
    have hk : .feedback k ∉ d.usb.owned := fun hk => Bool.noConfusion (h.captures _ hk)
    simp only [Driver.step, if_neg hk]
    exact h
  | captureDone j x ok =>
    by_cases hj : .capture j ∈ d.usb.owned
    · have hcap : ∀ y ∈ (d.release (.capture j)).usb.owned, y.isPlayback = false :=
        fun y hy => h.captures y (Finset.mem_of_mem_erase hy)
      obtain ⟨hpb, hout, howned⟩ := onCapture_idle (d := d.release (.capture j)) (j := j) h.pending hcap x ok
      have hstep : d.step (.captureDone j x ok) = (d.release (.capture j)).onCapture j x ok := if_pos hj
      rw [hstep] at hok ⊢
      exact h.congr (hpb ▸ h.balanced) (congrArg Playback.eventSide hpb) hout hok howned
    · simp only [Driver.step, if_neg hj]
      exact h
  | requestStop => exact h.congr h.balanced rfl rfl hok h.captures
  | writePcm data frames =>
    exact h.congr (h.balanced.writePcm data frames) (Playback.writePcm_eventSide data frames) rfl hok h.captures
  | submitQuantum accepting policy frames packed charge =>
    refine h.congr (hfree ?_ (h.balanced.submitQuantum accepting policy frames packed charge))
      (Playback.submitQuantum_eventSide _ _ _ _ _ _) rfl hok h.captures
    simp [Playback.quantumCharge, Playback.creditTaken, hun]
  | takePlaybackCredit frames =>
    refine h.congr (hfree ?_ (h.balanced.takePlaybackCredit frames)) (Playback.takePlaybackCredit_eventSide frames) rfl hok
      h.captures
    simp [Playback.creditTaken, hun]
  | chargePlaybackCredit frames =>
    refine h.congr (hfree ?_ (h.balanced.chargePlaybackCredit frames)) (Playback.chargePlaybackCredit_eventSide frames) rfl
      hok h.captures
    simp [Playback.creditCharged, hun]
  | setPolicy _ _ _ _ => exact h.congr (h.balanced.congr rfl rfl rfl rfl rfl rfl) rfl rfl hok h.captures
  | readCapturePcm _ => exact h.congr h.balanced rfl rfl hok h.captures
  | discardCaptureFrames _ => exact h.congr h.balanced rfl rfl hok h.captures
  | beginCaptureLive _ => exact h.congr h.balanced rfl rfl hok h.captures
  | registerPlayback => exact h.congr h.balanced rfl rfl hok h.captures
  | unregisterPlayback => exact h.congr h.balanced rfl rfl hok h.captures
  | registerCapture => exact h.congr h.balanced rfl rfl hok h.captures
  | unregisterCapture => exact h.congr h.balanced rfl rfl hok h.captures

theorem resetCapture (h : d.Idle) (format : StreamFormat) : (d.resetCapture format).Idle :=
  h.congr h.balanced rfl rfl h.rotation h.captures

end Idle

theorem submitFirst_rotation {ok : Xfer → Bool} {lengths : Xfer → List Nat} {x : Xfer}
    (he : d.submitFirst ok lengths x = some d') : d'.rotation = (d.rotation.enter x).submit x true := by
  unfold submitFirst at he
  split at he
  · cases x <;> cases he <;> simp [rotation, Rotation.enter, Rotation.submit, Xfer.isPlayback, submit, Usb.submit,
      queueSubmitted]
  · cases he

/-- The transfers of one submission loop: each once, none of them owned or pending. -/
structure Unsubmitted (d : Driver w) (L : Finset Nat) (xs : List Xfer) : Prop where
  nodup : xs.Nodup
  free : ∀ x ∈ xs, x ∉ d.usb.owned
  out : ∀ i, .out i ∈ xs → i ∈ L ∧ i ∉ d.pending

namespace Unsubmitted

variable {L : Finset Nat} {x : Xfer} {xs : List Xfer}

theorem rotation (h : d.Unsubmitted L (x :: xs)) (hr : d.rotation.Ok L) {ok : Xfer → Bool} {lengths : Xfer → List Nat}
    (he : d.submitFirst ok lengths x = some d') : d'.rotation.Ok L := by
  rw [submitFirst_rotation he]
  refine (hr.enter (h.free x List.mem_cons_self) fun i hi => ?_).resubmit
  exact h.out i (hi ▸ List.mem_cons_self)

theorem tail (h : d.Unsubmitted L (x :: xs)) {ok : Xfer → Bool} {lengths : Xfer → List Nat}
    (he : d.submitFirst ok lengths x = some d') : d'.Unsubmitted L xs := by
  have hrot := submitFirst_rotation he
  have howned : d'.usb.owned = insert x d.usb.owned := congrArg Rotation.owned hrot
  have hpending : d'.pending = d.pending := congrArg Rotation.pending hrot
  obtain ⟨hx, hxs⟩ := List.nodup_cons.1 h.nodup
  refine ⟨hxs, fun y hy => ?_, fun i hi => hpending ▸ h.out i (List.mem_cons_of_mem _ hi)⟩
  rw [howned, Finset.mem_insert, not_or]
  exact ⟨fun he => hx (he ▸ hy), h.free y (List.mem_cons_of_mem _ hy)⟩

end Unsubmitted

theorem Idle.startCapturePump (h : d.Idle) (hnone : d.usb.owned = ∅) {mps : Int} {ok : Xfer → Bool}
    (he : d.startCapturePump mps ok = some d') : d'.Idle := by
  unfold Driver.startCapturePump at he
  dsimp only at he
  split at he
  · cases he
  refine (foldlM_rule (P := fun xs (d : Driver w) => d.Idle ∧ d.Unsubmitted ∅ xs ∧ ∀ x ∈ xs, x.isPlayback = false)
    (fun x xs d d' hP hd => ?_) ?_ he).1
  · obtain ⟨hidle, hun, hcap⟩ := hP
    have hx : x.isPlayback = false := hcap x List.mem_cons_self
    have hrot := hun.rotation hidle.rotation hd
    have howned : ∀ y ∈ d'.usb.owned, y.isPlayback = false := by
      intro y hy
      rw [show d'.usb.owned = insert x d.usb.owned from congrArg Rotation.owned (submitFirst_rotation hd)] at hy
      rcases Finset.mem_insert.1 hy with rfl | hy
      · exact hx
      · exact hidle.captures y hy
    refine ⟨?_, hun.tail hd, fun y hy => hcap y (List.mem_cons_of_mem _ hy)⟩
    unfold submitFirst at hd
    split at hd
    · cases x with
      | capture j =>
        cases hd
        exact hidle.congr hidle.balanced rfl rfl hrot howned
      | out i => cases hx
      | feedback k => cases hx
    · cases hd
  · refine ⟨h.congr h.balanced rfl rfl ?_ h.captures, ⟨?_, ?_, ?_⟩, ?_⟩
    · exact ⟨⟨h.rotation.pending_nodup, h.rotation.pending_free, h.rotation.pending_mem, h.rotation.owned_mem,
        h.rotation.failed_stop⟩, h.rotation.inflight, h.rotation.captureInflight⟩
    · exact List.nodup_range.map fun _ _ => Xfer.capture.inj
    · intro x _
      show x ∉ d.usb.owned
      rw [hnone]; exact Finset.notMem_empty x
    · simp
    · simp [Xfer.isPlayback]

/-- The OUT descriptors are planned in whole frames. -/
theorem Idle.startIsoPump (h : d.Idle) {maxPacket : Int} {alloc : Bool}
    (he : d.startIsoPump maxPacket alloc = some d') :
    d'.Idle := by
  unfold Driver.startIsoPump at he
  obtain ⟨-, he⟩ := Option.ite_none_left_eq_some.1 he
  obtain ⟨⟨plan, fifo⟩, -, rfl⟩ := Option.map_eq_some_iff.1 he
  refine ⟨h.balanced.congr rfl rfl rfl rfl rfl rfl, h.queued, h.unstarted, rfl, ?_, h.captures, ?_, h.transferCount,
    h.transferCount⟩
  · exact ⟨⟨List.nodup_nil, nofun, nofun, h.rotation.owned_mem, h.rotation.failed_stop⟩, h.rotation.inflight,
      h.rotation.captureInflight⟩
  · intro i n hn
    simp only [Transfer.lengths, Transfer.planned, List.map_map, List.mem_map] at hn
    obtain ⟨frames, -, rfl⟩ := hn
    exact Nat.dvd_mul_left ..

/-! ### The initial submission -/

namespace Ledger

variable {held : Nat}

theorem primeOut {i : Nat} (h : d.Ledger 0 held 0 0) (hi : .out i ∉ d.usb.owned) :
    (d.primeOut i).Ledger 0 (held + (d.primeOut i).outFrames i) 0 0 ∧ (d.primeOut i).stride = d.stride := by
  obtain ⟨drained, hlens, hwhole, hstride, hbal⟩ := h.balanced.primeTransfer (x := d.transfers i) 0 rfl
    (show 0 + (d.transfers i).lengths.length = (d.transfers i).numIsoPackets by simp) (h.whole i)
  have hstride' : (d.primeOut i).stride = d.stride := hstride
  have hself : ((d.primeOut i).transfers i).lengths = drained := by
    simp only [Driver.primeOut, Function.update_self]
    rw [hlens, List.take_zero, List.nil_append]
  have hother : ∀ k ≠ i, (d.primeOut i).transfers k = d.transfers k := fun k hk => Function.update_of_ne hk ..
  have hside : (d.primeOut i).pb.eventSide = d.pb.eventSide := Playback.primeTransfer_eventSide ..
  have hqueued : (d.primeOut i).pb.queuedOutFrames = d.pb.queuedOutFrames := congrArg (fun e => e.2.1) hside
  refine ⟨⟨?_, fun k n hn => ?_, ?_, (congrArg (fun e => e.2.2) hside).trans h.started, h.running⟩, hstride'⟩
  · rw [outFrames, Transfer.descriptorFrames_eq, hself, hstride']
    exact hbal
  · rw [hstride']
    by_cases hk : k = i
    · subst hk
      rw [hself] at hn; exact hwhole n hn
    · rw [hother k hk] at hn; exact h.whole k n hn
  · rw [hqueued, h.queued]
    congr 1
    refine Finset.sum_congr rfl fun x hx => ?_
    cases x with
    | out k =>
      have hk : k ≠ i := by rintro rfl; exact hi hx
      simp only [xferFrames, outFrames, hother k hk, hstride']
    | _ => rfl

theorem primeAll (h : d.Ledger 0 0 0 0) (hout : ∀ i, .out i ∉ d.usb.owned) (n : Nat) :
    let r := (List.range n).foldl Driver.primeOut d
    r.Ledger 0 ((List.range n).map r.outFrames).sum 0 0 ∧ r.rotation = d.rotation ∧
    r.usb = d.usb ∧ r.pending = d.pending := by
  induction n with
  | zero => exact ⟨h, rfl, rfl, rfl⟩
  | succ n ih =>
    obtain ⟨hl, hrot, husb, hpend⟩ := ih
    dsimp only at hl hrot husb hpend ⊢
    rw [List.range_succ, List.foldl_append, List.foldl_cons, List.foldl_nil]
    obtain ⟨hl', hstride⟩ := hl.primeOut (i := n) (by rw [husb]; exact hout n)
    refine ⟨?_, hrot, husb, hpend⟩
    rw [List.map_append, List.sum_append, List.map_singleton, List.sum_singleton]
    have hsame : (List.range n).map (((List.range n).foldl Driver.primeOut d).primeOut n).outFrames =
        (List.range n).map ((List.range n).foldl Driver.primeOut d).outFrames := by
      refine List.map_congr_left fun k hk => ?_
      have hk' : k ≠ n := (List.mem_range.1 hk).ne
      have htr : (((List.range n).foldl Driver.primeOut d).primeOut n).transfers k =
          ((List.range n).foldl Driver.primeOut d).transfers k := Function.update_of_ne hk' ..
      rw [outFrames, outFrames, htr, hstride]
    rw [hsame]
    exact hl'

theorem submitFirst {x : Xfer} (h : d.Ledger 0 (d.xferFrames x + held) 0 0) (hx : x ∉ d.usb.owned) {ok : Xfer → Bool}
    {lengths : Xfer → List Nat} (he : d.submitFirst ok lengths x = some d') :
    d'.Ledger 0 held 0 0 ∧ d'.xferFrames = d.xferFrames := by
  unfold Driver.submitFirst at he
  split at he
  swap
  · cases he
  cases x with
  | out i =>
    cases he
    rw [Nat.add_comm] at h
    refine ⟨h.queueSubmitted hx rfl rfl rfl rfl, ?_⟩
    funext x; cases x <;> rfl
  | feedback k =>
    cases he
    rw [show d.xferFrames (.feedback k) + held = held from Nat.zero_add _] at h
    have h' : ({ d with inflight := d.inflight + 1 } : Driver w).Ledger 0 held 0 0 := h.congr rfl rfl rfl rfl
    exact ⟨h'.submitOther rfl hx _, by funext x; cases x <;> rfl⟩
  | capture j =>
    cases he
    rw [show d.xferFrames (.capture j) + held = held from Nat.zero_add _] at h
    have h' : ({ d with captureInflight := d.captureInflight + 1 } : Driver w).Ledger 0 held 0 0 :=
      h.congr rfl rfl rfl rfl
    exact ⟨h'.submitOther rfl hx _, by funext x; cases x <;> rfl⟩

end Ledger

theorem sum_initialXfers (d r : Driver w) :
    (d.initialXfers.map r.xferFrames).sum = ((List.range d.outCount).map r.outFrames).sum := by
  have hfb : ((List.range d.feedbackCount).map (r.xferFrames ∘ Xfer.feedback)).sum = 0 :=
    List.sum_eq_zero (by simp [xferFrames])
  rw [initialXfers, List.map_append, List.sum_append, List.map_map, List.map_map, hfb, Nat.zero_add]
  rfl

theorem initialXfers_nodup : d.initialXfers.Nodup := by
  refine List.nodup_append.2 ⟨List.nodup_range.map fun _ _ => Xfer.feedback.inj,
    List.nodup_range.map fun _ _ => Xfer.out.inj, ?_⟩
  intro a ha b hb hab
  obtain ⟨k, -, rfl⟩ := List.mem_map.1 ha
  obtain ⟨i, -, rfl⟩ := List.mem_map.1 hb
  cases hab

theorem isPlayback_of_initialXfers {x : Xfer} (hx : x ∈ d.initialXfers) : x.isPlayback = true := by
  rcases List.mem_append.1 hx with hx | hx <;> obtain ⟨k, -, rfl⟩ := List.mem_map.1 hx <;> rfl

theorem Ledger.submitIsoPump (h : d.Ledger 0 0 0 0) (hr : d.rotation.Ok (Finset.range d.outCount))
    (hfree : ∀ x, x.isPlayback = true → x ∉ d.usb.owned) (hp : d.pending = []) {ok : Xfer → Bool}
    (he : d.submitIsoPump ok = some d') :
    d'.rotation.Ok (Finset.range d.outCount) ∧ d'.Ledger 0 0 0 0 := by
  unfold Driver.submitIsoPump at he
  obtain ⟨-, he⟩ := Option.ite_none_left_eq_some.1 he
  obtain ⟨-, he⟩ := Option.ite_none_left_eq_some.1 he
  obtain ⟨d₁, hsubmit, rfl⟩ := Option.map_eq_some_iff.1 he
  obtain ⟨hl, hrot, husb, hpend⟩ := h.primeAll (fun i => hfree _ rfl) d.outCount
  have hloop := foldlM_rule (P := fun xs (d' : Driver w) => d'.rotation.Ok (Finset.range d.outCount) ∧
      d'.Unsubmitted (Finset.range d.outCount) xs ∧ d'.Ledger 0 (xs.map d'.xferFrames).sum 0 0)
    (fun x xs d₂ d₃ hP hd => ?_) ?_ hsubmit
  · exact ⟨hloop.1, hloop.2.2.setPlayback (hloop.2.2.balanced.congr rfl rfl rfl rfl rfl rfl)
      (by simp [Playback.eventSide, hloop.2.2.started]) rfl rfl rfl⟩
  · obtain ⟨hr, hun, hled⟩ := hP
    rw [List.map_cons, List.sum_cons] at hled
    obtain ⟨h₁, h₂⟩ := hled.submitFirst (hun.free x List.mem_cons_self) hd
    exact ⟨hun.rotation hr hd, hun.tail hd, h₂ ▸ h₁⟩
  · refine ⟨hrot ▸ hr, ⟨initialXfers_nodup, fun x hx => ?_, fun i hi => ⟨?_, ?_⟩⟩, ?_⟩
    · rw [husb]; exact hfree x (isPlayback_of_initialXfers hx)
    · simpa [initialXfers] using hi
    · rw [hpend, hp]; exact List.not_mem_nil
    · rw [sum_initialXfers]; exact hl

theorem Idle.startPlayback (h : d.Idle) {ok : Xfer → Bool} (he : d.startPlayback ok = some d') :
    d'.rotation.Ok (Finset.range d.outCount) ∧ d'.Ledger 0 0 0 0 := by
  have hfree : ∀ x, x.isPlayback = true → x ∉ d.usb.owned := fun x hx hmem => by
    rw [h.captures x hmem] at hx; cases hx
  obtain ⟨-, he⟩ := Option.ite_none_left_eq_some.1 he
  have hrun : d.stopRequested = false := by
    have hs := (Option.ite_none_left_eq_some.1 he).1
    simpa using hs
  refine Ledger.submitIsoPump (d := { d with pb := { d.pb with playbackStarted := true } })
    ⟨h.balanced.congr rfl rfl rfl rfl rfl rfl, h.whole, ?_, rfl, hrun⟩ ?_ hfree h.pending he
  · rw [Finset.sum_eq_zero fun x hx => ?_]
    · exact h.queued
    · have := h.captures x hx
      cases x <;> first | rfl | cases this
  · have hr := h.rotation
    exact ⟨⟨hr.pending_nodup, hr.pending_free, fun i hi => absurd (hr.pending_mem i hi) (Finset.notMem_empty i),
      fun i hi => absurd hi (hfree _ rfl), hr.failed_stop⟩, hr.inflight, hr.captureInflight⟩

end Driver

/-- The books of a duplex session on a fresh driver, for any steps before the OUT descriptors are planned, any
steps before the start, and any steps after it that keep the session running. Written frames are buffered,
queued or completed; drained frames are queued or completed; credit is what completed less what was charged.
So credit, ring and queue together move only by what is written and not charged, or charged and not yet
written, and stay where they were once every block written since the start has been charged exactly once. -/
theorem playback_ledger_balances {w : Nat} (c : UserspaceBufferConfig) (hc : c.accepted = true) (d : Driver w)
    (hd : d.Fresh c) (playback capture : StreamFormat) (mps maxPacket : Int) (captureOk playbackOk : Xfer → Bool)
    (alloc : Bool) (warm pre as : List DriverAct) (d₁ d₂ d₃ : Driver w)
    (h₁ : ((d.start playback).resetCapture capture).startCapturePump mps captureOk = some d₁)
    (h₂ : (run Driver.step d₁ warm).startIsoPump maxPacket alloc = some d₂)
    (h₃ : (run Driver.step d₂ pre).startPlayback playbackOk = some d₃) (has : ∀ a ∈ as, a.KeepsRunning) :
    let s := run LedgerRun.step { drv := d₃ } as
    let p := s.drv.pb
    p.writtenFrames = p.bufferedFrames + p.queuedOutFrames + s.completed ∧
    p.playedFrames = p.queuedOutFrames + s.completed ∧
    p.playbackCredit = s.completed - s.charged ∧
    p.playbackCredit + p.bufferedFrames + p.queuedOutFrames =
      d₃.pb.playbackCredit + d₃.pb.bufferedFrames + d₃.pb.queuedOutFrames +
        ((p.writtenFrames - d₃.pb.writtenFrames : Int) - s.charged) ∧
    (s.charged = (p.writtenFrames - d₃.pb.writtenFrames : Int) →
      p.playbackCredit + p.bufferedFrames + p.queuedOutFrames =
        d₃.pb.playbackCredit + d₃.pb.bufferedFrames + d₃.pb.queuedOutFrames) := by
  intro s p
  have hidle (d' : Driver w) (h : d'.Idle) (bs : List DriverAct) : (run Driver.step d' bs).Idle :=
    run_invariant (I := Driver.Idle) (fun _ a h => h.step a) h bs
  have hi₁ : d₁.Idle := ((Driver.Idle.start hc hd playback).resetCapture capture).startCapturePump hd.owned h₁
  have hi₂ : d₂.Idle := (hidle d₁ hi₁ warm).startIsoPump h₂
  have hi₃ := hidle d₂ hi₂ pre
  obtain ⟨hrot, hled⟩ := hi₃.startPlayback h₃
  have hL : (Finset.range (run Driver.step d₂ pre).outCount).card ≤ kMaxTransferCount := by
    rw [Finset.card_range]; exact hi₃.outCount
  have hmeets : Meets LedgerRun.step (fun _ a => a.KeepsRunning) { drv := d₃ } as := .of_forall has _
  have hs : s.Inv (Finset.range (run Driver.step d₂ pre).outCount) :=
    hmeets.invariant (I := LedgerRun.Inv _) (fun s a ha h => h.step hL a ha) ⟨hrot, hled⟩
  have hw : p.writtenFrames = p.bufferedFrames + 0 + p.queuedOutFrames + s.completed := hs.ledger.balanced.written
  have hp : p.playedFrames = 0 + p.queuedOutFrames + s.completed := hs.ledger.balanced.played
  have hcr : p.playbackCredit = s.completed - s.charged := hs.ledger.balanced.credit
  have hw₀ : d₃.pb.writtenFrames = d₃.pb.bufferedFrames + 0 + d₃.pb.queuedOutFrames + 0 := hled.balanced.written
  have hcr₀ : d₃.pb.playbackCredit = ((0 : Nat) : Int) - 0 := hled.balanced.credit
  refine ⟨by omega, by omega, hcr, by omega, fun hch => by omega⟩

/-- Two OUT transfers of two frames, six frames written before the start. One block of three frames is charged
and published, one transfer completes, and a held block of two frames is charged and published later: five
frames written, five charged, and the sum is back at its start value. -/
theorem playback_ledger_balances_held :
    ∃ d₃ : Driver 64, ∃ as : List DriverAct,
      let s := run LedgerRun.step { drv := d₃ } as
      let p := s.drv.pb
      d₃.pb.bufferedFrames = 2 ∧ d₃.pb.queuedOutFrames = 4 ∧ p.writtenFrames = 11 ∧ s.completed = 2 ∧ s.charged = 5 ∧
      p.playbackCredit + p.bufferedFrames + p.queuedOutFrames =
        d₃.pb.playbackCredit + d₃.pb.bufferedFrames + d₃.pb.queuedOutFrames := by
  let z : RingSize 64 := .smallest
  let c : UserspaceBufferConfig := { transferCount := 2, packetsPerTransfer := 1 }
  let f : StreamFormat := { sampleRateHz := 2000, bytesPerSample := 2, channels := 2, bInterval := 4 }
  let d : Driver 64 :=
    { pb := { ring := Ring.assign z, playbackTargetFrames := 2, writeHeadroomFrames := 8 }
      cap := { ring := Ring.assign z }, userspaceBufferConfig := c, geometry := { transferCount := 2 } }
  let ok : Xfer → Bool := fun _ => true
  let d₁ := ((d.start f).resetCapture f).startCapturePump 12 ok
  let d₂ := (d₁.getD d).startIsoPump 12 true
  let d₃ := (run Driver.step (d₂.getD d) [.writePcm [] 6]).startPlayback ok
  let as : List DriverAct :=
    [.submitQuantum true 1 3 (some []) true, .outDone 0 .completed [] ok, .chargePlaybackCredit 2,
      .submitQuantum true 1 2 (some []) false]
  have hd : d.Fresh c := ⟨rfl, rfl, rfl, rfl, rfl, rfl, rfl, rfl, fun _ => rfl⟩
  have hsome : ∀ o : Option (Driver 64), o.isSome = true → o = some (o.getD d) := by
    rintro (_ | d') h
    · cases h
    · rfl
  have h₁ : d₁ = some (d₁.getD d) := hsome d₁ (by decide)
  have h₂ : d₂ = some (d₂.getD d) := hsome d₂ (by decide)
  have h₃ : d₃ = some (d₃.getD d) := hsome d₃ (by decide)
  have has : ∀ a ∈ as, a.KeepsRunning := by simp [as, DriverAct.KeepsRunning, ok]
  have h := playback_ledger_balances c (by decide) d hd f f 12 12 ok ok true [] [.writePcm [] 6] as _ _ _ h₁ h₂ h₃ has
  exact ⟨d₃.getD d, as, by decide, by decide, by decide, by decide, by decide, h.2.2.2.2 (by decide)⟩

end UacDriver

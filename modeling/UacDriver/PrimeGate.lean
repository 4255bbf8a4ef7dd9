import UacDriver.PrimingRace
import UacDriver.Host

/-!
# The gate before the initial packets

Both duplex starts wait until the layout FIFO holds `startupEntries` counts, and `startIsoPump` then takes one for each
of the `initialPackets`. The wait sizes a transfer by the automatic batch, the pump by the configured one: a batch that
is configured larger than the automatic one lets the pump run out of the counts that the wait was to provide.
-/

namespace UacDriver

open Runs

/-- What the wait asks for: `transferCount_` automatic batches. -/
def UserspaceBufferConfig.startupEntries (c : UserspaceBufferConfig) (f : StreamFormat) : Nat :=
  c.resolvedTransferCount * packetsPerTransferForRate (packetsPerSecondForInterval f.isHighSpeed f.bInterval)

/-- What the pump takes: `transferCount_` batches as configured. -/
def UserspaceBufferConfig.initialPackets (c : UserspaceBufferConfig) (f : StreamFormat) : Nat :=
  c.resolvedTransferCount * c.packetsPerTransferAt f.microframesPerSec

/-- `maxFramesPerPacket_` for an endpoint of `maxPacket` bytes. -/
def StreamFormat.maxFramesPerPacket (f : StreamFormat) (maxPacket : Int) : Nat :=
  min (maxPacket.toNat / f.frameStride)
    (f.sampleRateHz / f.microframesPerSec + (if 0 < f.sampleRateHz % f.microframesPerSec then 1 else 0) + 1)

/-- The gate is enough: whatever is pushed before and after it, in whatever order with the priming loop, the loop does
not run dry, and sizes every packet once it has made the accesses that this takes. -/
def GateSuffices (required total maxFrames : Nat) : Prop :=
  ∀ (slots : Nat → Nat) (pre as : List PrimingAct), (∀ spurious, .primer spurious ∉ pre) →
    let gate := run (PrimingRace.step maxFrames total) (PrimingRace.start slots) pre
    let s := run (PrimingRace.step maxFrames total) gate as
    required ≤ gate.race.fifo.implicitWrite - gate.race.fifo.implicitRead →
    (∀ v ∈ s.race.pushed, v ≠ 0) → s.race.resyncs = [] →
    s.outcome ≠ .exhausted ∧
      (5 * total + ((pre ++ as).map PrimingRace.grant).sum < ((pre ++ as).map PrimingRace.cost).sum → s.outcome = .primed)

theorem packetsPerSecondForInterval_eq (f : StreamFormat) :
    packetsPerSecondForInterval f.isHighSpeed f.bInterval = f.microframesPerSec := by
  unfold packetsPerSecondForInterval StreamFormat.microframesPerSec StreamFormat.packetIntervalUframes
  rw [Nat.min_comm]

/-- For a positive rate the pump never sizes a packet to nothing. -/
theorem StreamFormat.maxFramesPerPacket_pos {w : Nat} {d : Driver w} {maxPacket : Int} (hrate : 0 < d.pb.format.sampleRateHz)
    (hpump : d.pumpRefused maxPacket = false) : 0 < d.pb.format.maxFramesPerPacket maxPacket := by
  have hfit : d.pb.format.sampleRateHz / d.pb.format.microframesPerSec +
      (if 0 < d.pb.format.sampleRateHz % d.pb.format.microframesPerSec then 1 else 0) ≤ maxPacket.toNat / d.stride := by
    simp only [Driver.pumpRefused, decide_eq_false_iff_not, not_or, Nat.not_lt] at hpump
    exact hpump.2.2
  refine Nat.lt_min.2 ⟨Nat.lt_of_lt_of_le ?_ hfit, Nat.succ_pos _⟩
  by_contra hzero
  obtain ⟨hquot, hrest⟩ := Nat.add_eq_zero_iff.1 (Nat.eq_zero_of_not_pos hzero)
  have hdiv := Nat.div_add_mod d.pb.format.sampleRateHz d.pb.format.microframesPerSec
  rw [hquot, Nat.mul_zero, Nat.zero_add] at hdiv
  rw [hdiv, if_pos hrate] at hrest
  exact absurd hrest Nat.one_ne_zero

/-! ### The model's gate and pump -/

namespace Host

variable {w : Nat} (h : Host w) (a : Answers w)

/-- A start passes the wait exactly with `startupEntries` counts in the FIFO. -/
theorem primeLayout_iff
    (hcount : h.drv.geometry.transferCount = h.drv.userspaceBufferConfig.resolvedTransferCount) :
    (h.primeLayout a).2 = true ↔ h.drv.userspaceBufferConfig.startupEntries h.drv.pb.format ≤
      (h.primeLayout a).1.drv.fifo.implicitWrite - (h.primeLayout a).1.drv.fifo.implicitRead := by
  unfold primeLayout UserspaceBufferConfig.startupEntries
  rw [hcount]
  dsimp only
  split
  · rename_i hlt
    simp only [err, Bool.false_eq_true, false_iff, Nat.not_le]
    exact hlt
  · rename_i hge
    simp only [true_iff]
    exact Nat.le_of_not_lt hge

end Host

/-- An implicit-feedback pump that is not refused takes `initialPackets` counts. -/
theorem Driver.startIsoPump_implicit {w : Nat} {d : Driver w} {maxPacket : Int} (himplicit : d.implicitMode = true)
    (hcount : d.geometry.transferCount = d.userspaceBufferConfig.resolvedTransferCount)
    (hpump : d.pumpRefused maxPacket = false) :
    (d.startIsoPump maxPacket true).isSome = (d.fifo.primePackets (d.pb.format.maxFramesPerPacket maxPacket)
      (d.userspaceBufferConfig.initialPackets d.pb.format)).isSome := by
  simp only [pumpRefused, decide_eq_false_iff_not, not_or] at hpump
  unfold startIsoPump initialPlan
  dsimp only
  rw [if_neg (by simp only [Bool.not_true, Bool.false_eq_true, or_false]; tauto), if_pos himplicit, Option.isSome_map,
    RationalPacketScheduler.nextN_length, hcount]
  rfl

/-! ### The gate is enough for the automatic batch -/

namespace PrimingRace

variable {maxFrames total required : Nat} {s : PrimingRace}

/-- Without an overflow and without an empty entry, every entry taken has sized a packet. -/
theorem Inv.frames_length (h : s.Inv maxFrames total) (hpos : 0 < maxFrames) (hzero : ∀ v ∈ s.race.pushed, v ≠ 0)
    (hresyncs : s.race.resyncs = []) : s.frames.length = s.race.fifo.implicitRead := by
  have hall : s.race.popped.filter (fun e => decide (0 < min e.1 maxFrames)) = s.race.popped := by
    refine List.filter_eq_self.2 fun e he => ?_
    have hval := hzero e.1 (List.mem_of_getElem? (h.race.popped_val e he))
    simp only [decide_eq_true_eq]
    omega
  have hnodup : (s.race.popped.map Prod.snd).Nodup :=
    (List.pairwise_map.2 h.race.popped_sorted).imp fun hlt => Nat.ne_of_lt hlt
  have hperm : (s.race.popped.map Prod.snd).Perm (List.range s.race.fifo.implicitRead) := by
    refine (List.perm_ext_iff_of_nodup hnodup List.nodup_range).2 fun i => ?_
    rw [List.mem_map, List.mem_range]
    constructor
    · rintro ⟨e, he, rfl⟩
      exact h.race.popped_lt e he
    · intro hi
      rcases h.race.covered i hi with he | ⟨r, hr, -⟩
      · exact he
      · rw [hresyncs] at hr
        exact absurd hr List.not_mem_nil
  have hlen := hperm.length_eq
  rw [List.length_map, List.length_range] at hlen
  rw [h.frames_taken, List.length_map, taken, hall, hlen]

/-- The gate has been passed, and a loop that has run dry has had more packets than that to size. -/
def Passed (required total : Nat) (s : PrimingRace) : Prop :=
  required ≤ s.race.fifo.implicitWrite ∧
    (s.outcome = .exhausted → (∀ v ∈ s.race.pushed, v ≠ 0) → s.race.resyncs = [] → required < total)

theorem stepPusher_grows (h : s.race.Inv) (spurious : Bool) :
    ∃ vs rs, (s.race.stepPusher spurious).pushed = s.race.pushed ++ vs ∧
      (s.race.stepPusher spurious).resyncs = s.race.resyncs ++ rs ∧
      s.race.fifo.implicitWrite ≤ (s.race.stepPusher spurious).fifo.implicitWrite := by
  have hpush := h.push
  unfold FifoRace.stepPusher
  split <;> rename_i hpc <;> rw [hpc] at hpush
  · exact ⟨[], [], by simp, by simp, Nat.le_refl _⟩
  · exact ⟨[], [], by simp, by simp, Nat.le_refl _⟩
  · rename_i v write read
    split
    · split
      · exact ⟨[], [(read, write)], by simp, rfl, Nat.le_refl _⟩
      · exact ⟨[], [], by simp, by simp, Nat.le_refl _⟩
    · exact ⟨[], [], by simp, by simp, Nat.le_refl _⟩
  · exact ⟨[], [], by simp, by simp, Nat.le_refl _⟩
  · exact ⟨[], [], by simp, by simp, Nat.le_refl _⟩
  · rename_i v write
    obtain ⟨rfl, -, -⟩ := hpush
    exact ⟨[v], [], rfl, by simp, Nat.le_succ _⟩

theorem Passed.step (hpos : 0 < maxFrames) (h : s.Inv maxFrames total) (hpassed : s.Passed required total)
    (a : PrimingAct) : (s.step maxFrames total a).Passed required total := by
  obtain ⟨hwrite, hdry⟩ := hpassed
  cases a with
  | beginPush v =>
    simp only [PrimingRace.step, FifoRace.step]
    split <;> exact ⟨hwrite, hdry⟩
  | pusher spurious =>
    obtain ⟨vs, rs, hpushed, hresyncs, hle⟩ := stepPusher_grows h.race spurious
    refine ⟨hwrite.trans hle, fun hout hzero hnone => hdry hout (fun v hv => hzero v ?_) ?_⟩
    · show v ∈ (s.race.stepPusher spurious).pushed
      rw [hpushed]
      exact List.mem_append_left _ hv
    · have hnone : (s.race.stepPusher spurious).resyncs = [] := hnone
      rw [hresyncs] at hnone
      exact (List.append_eq_nil_iff.1 hnone).1
  | primer spurious =>
    by_cases hrun : s.outcome = .running
    · have hspec := stepPrimer_spec h hrun spurious
      simp only [PrimingRace.step]
      generalize s.stepPrimer maxFrames total spurious = s' at hspec
      cases hspec with
      | exhausted hpop =>
        refine ⟨hwrite, fun _ hzero hnone => ?_⟩
        have hbusy := h.busy (by rw [hpop]; rfl)
        have hread := h.race.pop
        have hle := h.race.holds.read_le
        rw [hpop] at hread
        have hread : s.race.fifo.implicitWrite ≤ s.race.fifo.implicitRead := hread
        rw [h.frames_length hpos hzero hnone] at hbusy
        omega
      | begin_ => exact ⟨hwrite, hdry⟩
      | done => exact ⟨hwrite, fun hout => by cases hout⟩
      | look => exact ⟨hwrite, hdry⟩
      | load => exact ⟨hwrite, hdry⟩
      | skip => exact ⟨hwrite, hdry⟩
      | take => exact ⟨hwrite, hdry⟩
      | retry => exact ⟨hwrite, hdry⟩
    · rw [show s.step maxFrames total (.primer spurious) = s from stepPrimer_of_ne hrun]
      exact ⟨hwrite, hdry⟩

/-- Pushes alone do not move the loop. -/
theorem run_pushes {pre : List PrimingAct} (hpre : ∀ spurious, .primer spurious ∉ pre) (s : PrimingRace) :
    (run (PrimingRace.step maxFrames total) s pre).outcome = s.outcome := by
  induction pre generalizing s with
  | nil => rfl
  | cons a pre ih =>
    rw [run_cons, ih fun spurious hmem => hpre spurious (List.mem_cons_of_mem _ hmem)]
    cases a with
    | beginPush v => rfl
    | pusher spurious => rfl
    | primer spurious => exact absurd List.mem_cons_self (hpre spurious)

end PrimingRace

theorem gateSuffices_of_le {required total maxFrames : Nat} (hpos : 0 < maxFrames) (hle : total ≤ required) :
    GateSuffices required total maxFrames := by
  intro slots pre as hpre gate s hgate hzero hresyncs
  have hinv : gate.Inv maxFrames total := .run slots pre
  have hrunning : gate.outcome = .running := PrimingRace.run_pushes hpre _
  have hstart : gate.Passed required total :=
    ⟨by omega, fun hout => absurd (hrunning.symm.trans hout) nofun⟩
  have hpassed : s.Inv maxFrames total ∧ s.Passed required total :=
    run_invariant (I := fun s => PrimingRace.Inv maxFrames total s ∧ PrimingRace.Passed required total s)
      (fun _ a hs => ⟨hs.1.step a, .step hpos hs.1 hs.2 a⟩) ⟨hinv, hstart⟩ as
  have hdry : s.outcome ≠ .exhausted := fun hout => by
    have := hpassed.2.2 hout hzero hresyncs
    omega
  refine ⟨hdry, fun hlt => ?_⟩
  cases hout : s.outcome with
  | running =>
    have hrun : (run (PrimingRace.step maxFrames total) (PrimingRace.start slots) (pre ++ as)).outcome = .running := by
      rw [run_append]
      exact hout
    have := PrimingRace.run_accesses slots _ hrun
    omega
  | exhausted => exact absurd hout hdry
  | primed => rfl

/-! ### And for no larger one -/

namespace PrimingRace

variable {maxFrames total : Nat} {s : PrimingRace}

/-- Pushes that nothing interrupts and that find room. -/
theorem run_pushAll (maxFrames total : Nat) (vs : List Nat) (hidle : s.race.push = .idle)
    (hroom : s.race.fifo.implicitWrite + vs.length ≤ s.race.fifo.implicitRead + kImplicitFifoCapacity) :
    ∃ fifo, run (step maxFrames total) s (pushAll vs) =
        { s with race := { s.race with fifo, pushed := s.race.pushed ++ vs } } ∧
      fifo.implicitRead = s.race.fifo.implicitRead ∧
      fifo.implicitWrite = s.race.fifo.implicitWrite + vs.length := by
  induction vs generalizing s with
  | nil => exact ⟨s.race.fifo, by simp [pushAll], rfl, rfl⟩
  | cons v vs ih =>
    rw [List.length_cons] at hroom
    have hnot : ¬ s.race.fifo.implicitWrite - s.race.fifo.implicitRead ≥ kImplicitFifoCapacity := by
      simp only [kImplicitFifoCapacity] at hroom ⊢
      omega
    have hpush : run (step maxFrames total) s (.beginPush v :: List.replicate 5 (.pusher false)) =
        { s with race := { s.race with fifo := s.race.fifo.push v, pushed := s.race.pushed ++ [v] } } := by
      have hrace := FifoRace.run_push hidle v
      rw [MetaFifo.resync, if_neg hnot, List.append_nil] at hrace
      rw [← hrace]
      rfl
    have hread : (s.race.fifo.push v).implicitRead = s.race.fifo.implicitRead := by
      rw [MetaFifo.push_read, MetaFifo.makeRoom, if_neg hnot]
    obtain ⟨fifo, hrun, hread', hwrite'⟩ := ih
      (s := { s with race := { s.race with fifo := s.race.fifo.push v, pushed := s.race.pushed ++ [v] } }) hidle
      (by
        show (s.race.fifo.push v).implicitWrite + vs.length ≤ (s.race.fifo.push v).implicitRead + kImplicitFifoCapacity
        rw [hread, MetaFifo.push_write]
        omega)
    refine ⟨fifo, ?_, hread'.trans hread, ?_⟩
    · show run (step maxFrames total) s ((.beginPush v :: List.replicate 5 (.pusher false)) ++ pushAll vs) = _
      rw [run_append, hpush, hrun]
      simp
    · rw [hwrite', List.length_cons]
      show (s.race.fifo.push v).implicitWrite + vs.length = _
      rw [MetaFifo.push_write]
      omega

theorem run_alone (h : s.Inv maxFrames total) (n : Nat) :
    (run (step maxFrames total) s (List.replicate n (.primer false))).race.pushed = s.race.pushed ∧
      (run (step maxFrames total) s (List.replicate n (.primer false))).race.resyncs = s.race.resyncs ∧
      (run (step maxFrames total) s (List.replicate n (.primer false))).race.fifo.implicitWrite =
        s.race.fifo.implicitWrite := by
  induction n generalizing s with
  | zero => exact ⟨rfl, rfl, rfl⟩
  | succ n ih =>
    have hstep : (s.stepPrimer maxFrames total false).race.pushed = s.race.pushed ∧
        (s.stepPrimer maxFrames total false).race.resyncs = s.race.resyncs ∧
        (s.stepPrimer maxFrames total false).race.fifo.implicitWrite = s.race.fifo.implicitWrite := by
      by_cases hrun : s.outcome = .running
      · have hspec := stepPrimer_spec h hrun false
        generalize s.stepPrimer maxFrames total false = s' at hspec
        cases hspec <;> exact ⟨rfl, rfl, rfl⟩
      · rw [stepPrimer_of_ne hrun]
        exact ⟨rfl, rfl, rfl⟩
    obtain ⟨hpushed, hresyncs, hwrite⟩ := ih (h.step (.primer false))
    rw [List.replicate_succ, run_cons]
    exact ⟨hpushed.trans hstep.1, hresyncs.trans hstep.2.1, hwrite.trans hstep.2.2⟩

theorem primer_not_mem_pushAll (vs : List Nat) (spurious : Bool) : .primer spurious ∉ pushAll vs := by
  simp [pushAll]

theorem cost_pushAll (vs : List Nat) : ((pushAll vs).map cost).sum = 0 := by
  induction vs with
  | nil => rfl
  | cons v vs ih =>
    show (((PrimingAct.beginPush v :: List.replicate 5 (.pusher false)) ++ pushAll vs).map cost).sum = 0
    rw [List.map_append, List.sum_append, ih]
    rfl

theorem grant_pushAll (vs : List Nat) : ((pushAll vs).map grant).sum = 8 * vs.length := by
  induction vs with
  | nil => rfl
  | cons v vs ih =>
    show (((PrimingAct.beginPush v :: List.replicate 5 (.pusher false)) ++ pushAll vs).map grant).sum = 8 * (vs.length + 1)
    rw [List.map_append, List.sum_append, ih, Nat.mul_succ, Nat.add_comm]
    rfl

end PrimingRace

/-- With exactly the counts that the gate asks for, the loop finds them too few. -/
theorem not_gateSuffices_of_lt {required total maxFrames : Nat} (hcap : required ≤ kImplicitFifoCapacity)
    (hlt : 0 < maxFrames → required < total) (htotal : 0 < total) : ¬ GateSuffices required total maxFrames := by
  intro hsuff
  obtain ⟨fifo, hgate, hread, hwrite⟩ := PrimingRace.run_pushAll (s := PrimingRace.start fun _ => 0)
    maxFrames total (List.replicate required 1) rfl
    (by simpa [PrimingRace.start, FifoRace.start] using hcap)
  have hwrite : fifo.implicitWrite = required := by
    rw [hwrite, List.length_replicate]
    exact Nat.zero_add _
  have hinv : (run (PrimingRace.step maxFrames total) (PrimingRace.start fun _ => 0)
      (PrimingRace.pushAll (List.replicate required 1))).Inv maxFrames total := .run _ _
  rw [hgate] at hinv
  let alone := List.replicate (5 * total + 8 * required + 1) (PrimingAct.primer false)
  obtain ⟨hpushed, hresyncs, hwrite'⟩ := PrimingRace.run_alone hinv (5 * total + 8 * required + 1)
  have hzero : ∀ v ∈ (PrimingRace.start fun _ => 0).race.pushed ++ List.replicate required 1, v ≠ 0 := by
    intro v hv
    have hone : v = 1 := by
      rcases List.mem_append.1 hv with hv | hv
      · exact absurd hv List.not_mem_nil
      · exact List.eq_of_mem_replicate hv
    rw [hone]
    exact Nat.one_ne_zero
  obtain ⟨-, hprimed⟩ := hsuff (fun _ => 0) (PrimingRace.pushAll (List.replicate required 1)) alone
    (PrimingRace.primer_not_mem_pushAll _)
    (by
      rw [hgate]
      show required ≤ fifo.implicitWrite - fifo.implicitRead
      rw [hwrite, hread]
      exact Nat.le_refl _)
    (by
      rw [hgate, hpushed]
      exact hzero)
    (by
      rw [hgate, hresyncs]
      rfl)
  have hend : (run (PrimingRace.step maxFrames total) (PrimingRace.start fun _ => 0)
      (PrimingRace.pushAll (List.replicate required 1) ++ alone)).Inv maxFrames total := .run _ _
  rw [run_append] at hend
  have hlength := hend.primed (hprimed (by
    rw [List.map_append, List.map_append, List.sum_append, List.sum_append, PrimingRace.cost_pushAll,
      PrimingRace.grant_pushAll, List.length_replicate, List.map_replicate, List.map_replicate]
    simp only [PrimingRace.cost, PrimingRace.grant, List.sum_replicate, smul_eq_mul]
    omega))
  rcases Nat.eq_zero_or_pos maxFrames with rfl | hpos
  · have hnone := hend.frames
    simp only [Nat.min_zero, List.filter_map, Function.comp_def, Nat.lt_irrefl, decide_false, List.filter_false,
      List.map_nil] at hnone
    rw [hnone, List.length_nil] at hlength
    omega
  · rw [hend.frames_length hpos (by rw [hgate, hpushed]; exact hzero) (by rw [hgate, hresyncs]; rfl)] at hlength
    have hle := hend.race.holds.read_le
    rw [hgate] at hlength hle
    exact absurd (hlt hpos) (Nat.not_lt.2 (hlength ▸ hle.trans (Nat.le_of_eq (hwrite'.trans hwrite))))

theorem packetsPerTransferForRate_bounds (packetsPerSecond : Nat) :
    1 ≤ packetsPerTransferForRate packetsPerSecond ∧ packetsPerTransferForRate packetsPerSecond ≤ 8 := by
  unfold packetsPerTransferForRate
  split
  · decide
  · split
    · decide
    · split <;> decide

/-- The counts that an accepted request lets the gate and the pump use. -/
theorem UserspaceBufferConfig.accepted_counts {c : UserspaceBufferConfig} (h : c.accepted = true) :
    1 ≤ c.resolvedTransferCount ∧ 0 ≤ c.packetsPerTransfer := by
  simp only [accepted, Bool.not_eq_true', Bool.or_eq_false_iff, Bool.and_eq_false_iff, bne_eq_false_iff_eq,
    decide_eq_false_iff_not] at h
  have hcount := h.1.1.1.1.1.1.1.1.2
  have hpackets := h.1.1.1.1.1.1.1.2
  simp only [kMinPacketsPerTransfer] at hpackets
  refine ⟨?_, by omega⟩
  unfold resolvedTransferCount
  split
  · omega
  · decide

/-- The gate is enough exactly for a batch that is configured no larger than the automatic one. The packet limit is
positive whenever the rate is and the pump is not refused. -/
theorem priming_gate_sufficient_iff (c : UserspaceBufferConfig) (f : StreamFormat) (maxPacket : Int)
    (haccepted : c.accepted = true) :
    GateSuffices (c.startupEntries f) (c.initialPackets f) (f.maxFramesPerPacket maxPacket) ↔
      c.packetsPerTransfer ≤ packetsPerTransferForRate f.microframesPerSec ∧ 0 < f.maxFramesPerPacket maxPacket := by
  obtain ⟨hcount, hpackets⟩ := UserspaceBufferConfig.accepted_counts haccepted
  have hmax := UserspaceBufferConfig.resolvedTransferCount_le haccepted
  obtain ⟨hauto, hauto8⟩ := packetsPerTransferForRate_bounds f.microframesPerSec
  have hrequired : c.startupEntries f = c.resolvedTransferCount * packetsPerTransferForRate f.microframesPerSec := by
    rw [UserspaceBufferConfig.startupEntries, packetsPerSecondForInterval_eq]
  have hbatch : 1 ≤ c.packetsPerTransferAt f.microframesPerSec ∧
      (c.packetsPerTransfer ≤ packetsPerTransferForRate f.microframesPerSec ↔
        c.packetsPerTransferAt f.microframesPerSec ≤ packetsPerTransferForRate f.microframesPerSec) := by
    unfold UserspaceBufferConfig.packetsPerTransferAt
    split <;> omega
  constructor
  · intro hsuff
    by_contra hnot
    have hcap : c.startupEntries f ≤ kImplicitFifoCapacity := by
      rw [hrequired]
      exact (Nat.mul_le_mul hmax hauto8).trans (by decide)
    refine not_gateSuffices_of_lt hcap (fun hpos => ?_) (Nat.mul_pos hcount hbatch.1) hsuff
    rw [hrequired]
    refine Nat.mul_lt_mul_of_pos_left (Nat.lt_of_not_le fun hle => ?_) hcount
    exact hnot ⟨hbatch.2.2 hle, hpos⟩
  · rintro ⟨hle, hpos⟩
    refine gateSuffices_of_le hpos ?_
    rw [hrequired]
    exact Nat.mul_le_mul_left _ (hbatch.2.1 hle)

/-- A high-speed endpoint with a packet a millisecond and eight packets configured for a transfer. -/
def PrimingRace.batchOfEight : UserspaceBufferConfig := { packetsPerTransfer := 8 }

def PrimingRace.millisecondSink : StreamFormat :=
  { sampleRateHz := 48000, bytesPerSample := 2, channels := 2, bInterval := 4 }

theorem priming_gate_sufficient_iff_batchOfEight :
    ¬ GateSuffices (PrimingRace.batchOfEight.startupEntries PrimingRace.millisecondSink)
      (PrimingRace.batchOfEight.initialPackets PrimingRace.millisecondSink)
      (PrimingRace.millisecondSink.maxFramesPerPacket 200) := fun h =>
  absurd ((priming_gate_sufficient_iff PrimingRace.batchOfEight PrimingRace.millisecondSink 200 (by decide)).1 h).1
    (by decide)

/-- Four counts pass the gate, and the fifth of thirty-two packets finds none. -/
theorem priming_gate_exhausted :
    let c := PrimingRace.batchOfEight
    let f := PrimingRace.millisecondSink
    let step := PrimingRace.step (f.maxFramesPerPacket 200) (c.initialPackets f)
    let gate := run step (PrimingRace.start fun _ => 0) (PrimingRace.pushAll [48, 48, 48, 48])
    let s := run step gate (List.replicate 18 (.primer false))
    c.accepted = true ∧ 0 < f.maxFramesPerPacket 200 ∧
      c.startupEntries f ≤ gate.race.fifo.implicitWrite - gate.race.fifo.implicitRead ∧
      s.race.pushed = [48, 48, 48, 48] ∧ s.race.resyncs = [] ∧ s.outcome = .exhausted := by
  refine ⟨by decide, by decide, by decide, rfl, rfl, rfl⟩

end UacDriver

import UacDriver.Driver
import Mathlib.Algebra.BigOperators.Ring.List

/-!
# Preparing an implicit-feedback transfer next to the producer

`prepareImplicitTransfer` tests the layout FIFO, tests the ring in whole frames, exchanges `implicitRead_` and then
drains packet by packet, while the render thread goes on writing. `ImplicitTransfer` is what the function works on;
the render thread runs before the frames are counted in each turn of the loop and before every drain. A weak exchange
may fail, in which case the loop takes another turn. The function either takes the layout and the PCM of the whole
transfer or nothing: between the count and the drains the producer can only add.
-/

namespace UacDriver

open Circular Runs

structure ImplicitTransfer (w : Nat) where
  /-- The playback ring with the render thread's region. -/
  run : PlaybackRun w
  fifo : MetaFifo
  maxFramesPerPacket : Nat
  xfr : Transfer
  deferredNoMetadata : Nat := 0
  deferredNoPcm : Nat := 0

namespace ImplicitTransfer

variable {w : Nat} (s : ImplicitTransfer w)

def count : Nat := s.xfr.numIsoPackets

def frameCounts : List Nat := s.fifo.frameCounts s.count s.maxFramesPerPacket

/-- `write < read || write - read < count`. -/
def noMetadata : Bool :=
  s.fifo.implicitWrite < s.fifo.implicitRead || s.fifo.implicitWrite - s.fifo.implicitRead < s.count

/-- The render thread does `acts`. -/
def produce (acts : List PlaybackAct) : ImplicitTransfer w := { s with run := Runs.run PlaybackRun.step s.run acts }

/-- One turn of the loop up to the exchange: whether the exchange is reached. -/
def turn (acts : List PlaybackAct) : ImplicitTransfer w × Bool :=
  if s.noMetadata then ({ s with deferredNoMetadata := s.deferredNoMetadata + 1 }, false)
  else
    let s' := s.produce acts
    if s'.run.pb.bufferedFrames < s'.frameCounts.sum then
      ({ s' with deferredNoPcm := s'.deferredNoPcm + 1 }, false)
    else (s', true)

/-- The loop: `failed` are the turns whose exchange fails, `last` is the one whose exchange succeeds. -/
def loop (last : List PlaybackAct) : List (List PlaybackAct) → ImplicitTransfer w → ImplicitTransfer w × Bool
  | [], s =>
    let (s', reached) := s.turn last
    if reached then ({ s' with fifo := s'.fifo.take s'.count }, true) else (s', false)
  | acts :: failed, s =>
    let (s', reached) := s.turn acts
    if reached then loop last failed s' else (s', false)

/-- The packet loop behind the exchange. -/
def fill (env : Nat → List PlaybackAct) (frameCounts : List Nat) : ImplicitTransfer w :=
  let r := refill (PlaybackRun.interleaved env) s.run.pb.stride 0 frameCounts (s.run, s.xfr)
  { s with run := r.1, xfr := r.2 }

/-- `prepareImplicitTransfer`; the render thread does `env p` before the drain of packet `p`. -/
def prepareImplicitTransfer (failed : List (List PlaybackAct)) (last : List PlaybackAct)
    (env : Nat → List PlaybackAct) : ImplicitTransfer w × Bool :=
  if s.count = 0 ∨ s.count > kMaxPacketsPerTransfer then (s, false)
  else
    let (s', taken) := loop last failed s
    if taken then (s'.fill env s.frameCounts, true) else (s', false)

end ImplicitTransfer

/-! ### What the producer leaves alone -/

/-- The fields that only the consumer writes. -/
def Playback.consumerSide {w : Nat} (p : Playback w) : BitVec w × Nat × Nat × Nat × Nat :=
  (p.ring.tail, p.playedFrames, p.playbackUnderruns, p.playbackShortPackets, p.playbackShortFrames)

namespace PlaybackRun

variable {w : Nat} {s : PlaybackRun w}

theorem step_consumerSide {a : PlaybackAct} (ha : ∀ bytes, a ≠ .drain bytes) :
    (s.step a).pb.consumerSide = s.pb.consumerSide := by
  cases a with
  | prepare frames =>
    simp only [step, Playback.preparePlaybackWrite]
    split
    · rfl
    · split <;> rfl
  | fillFirst o xs => simp only [step]; split <;> rfl
  | fillSecond o xs => simp only [step]; split <;> rfl
  | commit => simp only [step, Playback.commitPlaybackWrite]; split <;> rfl
  | abandon => rfl
  | drain bytes => exact absurd rfl (ha bytes)
  | policy started target prime headroom => rfl

theorem step_committed (a : PlaybackAct) : s.committed.length ≤ (s.step a).committed.length := by
  cases a with
  | fillFirst o xs => simp only [step]; split <;> exact le_rfl
  | fillSecond o xs => simp only [step]; split <;> exact le_rfl
  | commit => simp [step]
  | _ => exact le_rfl

/-- The producer only adds to the unread bytes. -/
theorem Inv.used_le_step (h : s.Inv) {a : PlaybackAct} (ha : ∀ bytes, a ≠ .drain bytes) :
    s.pb.ring.used ≤ (s.step a).pb.ring.used := by
  have hold := congrArg List.length h.fifo
  have hnew := congrArg List.length (h.step a).fifo
  rw [step_drained ha] at hnew
  rw [List.length_append, Ring.contents_length] at hold hnew
  have := step_committed (s := s) a
  omega

/-- What a stretch of the render thread does: the invariant holds again, the consumer's fields and the frame size are
the same, and no unread byte is gone. -/
theorem Inv.produce (h : s.Inv) {as : List PlaybackAct} (has : ProducerActs as) :
    let s' := run PlaybackRun.step s as
    s'.Inv ∧ s'.pb.consumerSide = s.pb.consumerSide ∧ s'.pb.stride = s.pb.stride ∧
      s.pb.ring.used ≤ s'.pb.ring.used := by
  induction as generalizing s with
  | nil => exact ⟨h, rfl, rfl, le_rfl⟩
  | cons a as ih =>
    have ha : ∀ bytes, a ≠ .drain bytes := fun b hb => has b (hb ▸ List.mem_cons_self)
    obtain ⟨hinv, hside, hstride, hused⟩ := ih (h.step a) fun b hb => has b (List.mem_cons_of_mem _ hb)
    exact ⟨hinv, hside.trans (step_consumerSide ha), hstride.trans (step_stride s a),
      (h.used_le_step ha).trans hused⟩

/-- `s` is a state after the consumer has taken `n` bytes from the state of `p`, and no drain was short. -/
structure Consumed (p : Playback w) (n : Nat) (s : PlaybackRun w) : Prop where
  inv : s.Inv
  stride : s.pb.stride = p.stride
  whole : p.stride ∣ n
  side : s.pb.consumerSide = (p.ring.tail + BitVec.ofNat w n, p.playedFrames + n / p.stride, p.playbackUnderruns,
    p.playbackShortPackets, p.playbackShortFrames)

theorem Consumed.zero (h : s.Inv) : Consumed s.pb 0 s := by
  refine ⟨h, rfl, Nat.dvd_zero _, ?_⟩
  simp [Playback.consumerSide]

/-- A drain that finds what it asks for. -/
theorem drainRing_consumerSide {p : Playback w} {bytes : Nat} (h : bytes ≤ p.ring.used) :
    (p.drainRing bytes).1.consumerSide = (p.ring.tail + BitVec.ofNat w bytes, p.playedFrames + bytes / p.stride,
      p.playbackUnderruns, p.playbackShortPackets, p.playbackShortFrames) := by
  have hn : p.drainCount bytes = bytes := Nat.min_eq_right h
  have hplayed : (p.drainRing bytes).1.playedFrames = p.playedFrames + bytes / p.stride := by
    simp only [Playback.drainRing, hn]
    split
    · rfl
    · rename_i h0
      simp [Nat.eq_zero_of_not_pos h0]
  rw [Playback.consumerSide, Playback.drainRing_ring, hn, hplayed]
  simp [Playback.drainRing, hn, Ring.advanceTail]

theorem Consumed.interleaved {p : Playback w} {n frames : Nat} (h : Consumed p n s) {env : Nat → List PlaybackAct}
    (henv : ∀ i, ProducerActs (env i)) (i : Nat) (hle : frames * p.stride ≤ s.pb.ring.used) :
    Consumed p (n + frames * p.stride) (interleaved env i (frames * p.stride) s).1 ∧
      (interleaved env i (frames * p.stride) s).2.length = frames * p.stride ∧
      s.pb.ring.used ≤ (interleaved env i (frames * p.stride) s).1.pb.ring.used + frames * p.stride := by
  obtain ⟨hinv, hside, hstride, hused⟩ := h.inv.produce (henv i)
  simp only [PlaybackRun.interleaved]
  generalize run PlaybackRun.step s (env i) = s₁ at hinv hside hstride hused
  have hfull : frames * p.stride ≤ s₁.pb.ring.used := hle.trans hused
  have hn : s₁.pb.drainCount (frames * p.stride) = frames * p.stride := Nat.min_eq_right hfull
  have hstride₁ : s₁.pb.stride = p.stride := hstride.trans h.stride
  refine ⟨⟨hinv.drain _, hstride₁, Nat.dvd_add h.whole (Nat.dvd_mul_left ..), ?_⟩, ?_, ?_⟩
  · have hold := hside.trans h.side
    simp only [Playback.consumerSide, Prod.mk.injEq] at hold
    refine (drainRing_consumerSide hfull).trans ?_
    rw [hold.1, hold.2.1, hold.2.2.1, hold.2.2.2.1, hold.2.2.2.2, hstride₁, Nat.add_div_of_dvd_right h.whole,
      BitVec.ofNat_add, BitVec.add_assoc, Nat.add_assoc]
  · rw [Playback.drainRing_length, hn]
  · show s.pb.ring.used ≤ (s₁.pb.drainRing _).1.ring.used + _
    rw [Playback.drainRing_used, hn]
    omega

end PlaybackRun

/-! ### The loop -/

namespace ImplicitTransfer

variable {w : Nat} {s : ImplicitTransfer w}

/-- What the loop leaves alone before its exchange succeeds: all but the producer's side and the defer counters. -/
structure Untouched (s' s : ImplicitTransfer w) : Prop where
  inv : s'.run.Inv
  side : s'.run.pb.consumerSide = s.run.pb.consumerSide
  stride : s'.run.pb.stride = s.run.pb.stride
  drained : s'.run.drained = s.run.drained
  fifo : s'.fifo = s.fifo
  xfr : s'.xfr = s.xfr
  maxFramesPerPacket : s'.maxFramesPerPacket = s.maxFramesPerPacket

theorem Untouched.trans {s₁ s₂ s₃ : ImplicitTransfer w} (h₁ : Untouched s₃ s₂) (h₂ : Untouched s₂ s₁) :
    Untouched s₃ s₁ :=
  ⟨h₁.inv, h₁.side.trans h₂.side, h₁.stride.trans h₂.stride, h₁.drained.trans h₂.drained, h₁.fifo.trans h₂.fifo,
    h₁.xfr.trans h₂.xfr, h₁.maxFramesPerPacket.trans h₂.maxFramesPerPacket⟩

theorem Untouched.frameCounts {s' : ImplicitTransfer w} (h : Untouched s' s) : s'.frameCounts = s.frameCounts := by
  simp only [ImplicitTransfer.frameCounts, count, h.fifo, h.xfr, h.maxFramesPerPacket]

theorem produce_untouched (h : s.run.Inv) {acts : List PlaybackAct} (hacts : PlaybackRun.ProducerActs acts) :
    Untouched (s.produce acts) s := by
  obtain ⟨hinv, hside, hstride, -⟩ := h.produce hacts
  exact ⟨hinv, hside, hstride, PlaybackRun.run_drained hacts s.run, rfl, rfl, rfl⟩

/-- A turn touches nothing, and reaches the exchange only with the PCM of the whole transfer in the ring. -/
theorem turn_untouched (h : s.run.Inv) {acts : List PlaybackAct} (hacts : PlaybackRun.ProducerActs acts) :
    Untouched (s.turn acts).1 s ∧
      ((s.turn acts).2 = true → s.frameCounts.sum * s.run.pb.stride ≤ (s.turn acts).1.run.pb.ring.used) := by
  have hp := produce_untouched h hacts
  unfold turn
  split
  · exact ⟨⟨h, rfl, rfl, rfl, rfl, rfl, rfl⟩, nofun⟩
  · dsimp only
    split
    · exact ⟨⟨hp.inv, hp.side, hp.stride, hp.drained, hp.fifo, hp.xfr, hp.maxFramesPerPacket⟩, nofun⟩
    · rename_i hbuffered
      refine ⟨hp, fun _ => ?_⟩
      rw [hp.frameCounts, Playback.bufferedFrames, hp.stride] at hbuffered
      split at hbuffered
      · rename_i h0
        rw [h0, Nat.mul_zero]
        exact Nat.zero_le _
      · rename_i h0
        exact (Nat.le_div_iff_mul_le (Nat.pos_of_ne_zero h0)).1 (Nat.le_of_not_lt hbuffered)

theorem loop_untouched {last : List PlaybackAct} (hlast : PlaybackRun.ProducerActs last)
    {failed : List (List PlaybackAct)} (hfailed : ∀ acts ∈ failed, PlaybackRun.ProducerActs acts) (h : s.run.Inv) :
    ((loop last failed s).2 = false → Untouched (loop last failed s).1 s) ∧
    ((loop last failed s).2 = true → ∃ s', Untouched s' s ∧
      s.frameCounts.sum * s.run.pb.stride ≤ s'.run.pb.ring.used ∧
      (loop last failed s).1 = { s' with fifo := s.fifo.take s.count }) := by
  induction failed generalizing s with
  | nil =>
    obtain ⟨hturn, hpcm⟩ := turn_untouched h hlast
    simp only [loop]
    split
    · rename_i hreached
      refine ⟨nofun, fun _ => ⟨(s.turn last).1, hturn, hpcm hreached, ?_⟩⟩
      rw [hturn.fifo, count, hturn.xfr]
      rfl
    · exact ⟨fun _ => hturn, nofun⟩
  | cons acts failed ih =>
    obtain ⟨hturn, -⟩ := turn_untouched h (hfailed acts List.mem_cons_self)
    simp only [loop]
    split
    · obtain ⟨hfalse, htrue⟩ := ih (s := (s.turn acts).1) (fun a ha => hfailed a (List.mem_cons_of_mem _ ha)) hturn.inv
      refine ⟨fun he => (hfalse he).trans hturn, fun he => ?_⟩
      obtain ⟨s', hs', hpcm, heq⟩ := htrue he
      refine ⟨s', hs'.trans hturn, ?_, ?_⟩
      · rw [← hturn.frameCounts, ← hturn.stride]
        exact hpcm
      · rw [heq, hturn.fifo, count, hturn.xfr]
        rfl
    · exact ⟨fun _ => hturn, nofun⟩

theorem fill_exact (h : s.run.Inv) {env : Nat → List PlaybackAct} (henv : ∀ i, PlaybackRun.ProducerActs (env i))
    {plan : List Nat} (hlen : plan.length = s.count) (hpcm : plan.sum * s.run.pb.stride ≤ s.run.pb.ring.used) :
    (s.fill env plan).xfr.lengths = plan.map (· * s.run.pb.stride) ∧
    (s.fill env plan).run.drained = s.run.drained ++ (s.fill env plan).xfr.payload ∧
    PlaybackRun.Consumed s.run.pb (plan.sum * s.run.pb.stride) (s.fill env plan).run := by
  have hlen' : plan.length = (s.run, s.xfr).2.numIsoPackets := hlen
  obtain ⟨hlens, hconsumed⟩ := drainAll_exact (PlaybackRun.interleaved env)
    (fun s' : PlaybackRun w => s'.pb.ring.used) (PlaybackRun.Consumed s.run.pb)
    (fun i frames n s' hs hle => hs.interleaved henv i hle) 0 (.zero h) hpcm
  rw [Nat.zero_add] at hconsumed
  simp only [fill]
  rw [refill_lengths _ _ hlen', refill_payload _ _ hlen', refill_fst]
  exact ⟨hlens, drainAll_log (PlaybackRun.interleaved_drained henv) .., hconsumed⟩

theorem prepareImplicitTransfer_cases (h : s.run.Inv) {failed : List (List PlaybackAct)} {last : List PlaybackAct}
    (env : Nat → List PlaybackAct) (hfailed : ∀ acts ∈ failed, PlaybackRun.ProducerActs acts)
    (hlast : PlaybackRun.ProducerActs last) :
    let r := s.prepareImplicitTransfer failed last env
    (r.2 = false → Untouched r.1 s) ∧
    (r.2 = true → ∃ s', Untouched s' s ∧ s.frameCounts.sum * s.run.pb.stride ≤ s'.run.pb.ring.used ∧
      r.1 = fill { s' with fifo := s.fifo.take s.count } env s.frameCounts) := by
  obtain ⟨hfalse, htrue⟩ := loop_untouched hlast hfailed h
  unfold prepareImplicitTransfer
  split
  · exact ⟨fun _ => ⟨h, rfl, rfl, rfl, rfl, rfl, rfl⟩, nofun⟩
  · dsimp only
    split
    · rename_i htaken
      obtain ⟨s', hs', hpcm, heq⟩ := htrue htaken
      exact ⟨nofun, fun _ => ⟨s', hs', hpcm, by rw [heq]⟩⟩
    · rename_i htaken
      exact ⟨fun _ => hfalse (by simpa using htaken), nofun⟩

/-! ### The driver's function -/

/-- What `prepareImplicitTransfer` of the driver works on. -/
def ofDriver (d : Driver w) (i : Nat) : ImplicitTransfer w :=
  { run := { pb := d.pb }, fifo := d.fifo, maxFramesPerPacket := d.pacing.maxFramesPerPacket, xfr := d.transfers i
    deferredNoMetadata := d.stats.deferredNoMetadata, deferredNoPcm := d.stats.deferredNoPcm }

theorem refill_interleaved_nil (stride p : Nat) (plan : List Nat) (s : PlaybackRun w) (x : Transfer) :
    let r := refill (PlaybackRun.interleaved fun _ => []) stride p plan (s, x)
    let r' := refill Playback.drainPacket stride p plan (s.pb, x)
    r.1.pb = r'.1 ∧ r.2 = r'.2 := by
  induction plan generalizing p s x with
  | nil => exact ⟨rfl, rfl⟩
  | cons frames plan ih =>
    simp only [refill, fillPacket]
    split
    · exact ih (p + 1) _ _
    · exact ih (p + 1) s _

/-- With an idle render thread and no failed exchange this is the function of the event-thread model. -/
theorem prepareImplicitTransfer_ofDriver (d : Driver w) (i : Nat) :
    let r := (ofDriver d i).prepareImplicitTransfer [] [] fun _ => []
    let d' := (d.prepareImplicitTransfer i).1
    r.2 = (d.prepareImplicitTransfer i).2 ∧ r.1.run.pb = d'.pb ∧ r.1.fifo = d'.fifo ∧ r.1.xfr = d'.transfers i ∧
      r.1.deferredNoMetadata = d'.stats.deferredNoMetadata ∧ r.1.deferredNoPcm = d'.stats.deferredNoPcm := by
  have hbad : (ofDriver d i).count = 0 ∨ (ofDriver d i).count > kMaxPacketsPerTransfer ↔ d.badCount i = true := by
    simp [Driver.badCount, ofDriver, count]
  simp only [prepareImplicitTransfer, Driver.prepareImplicitTransfer, hbad]
  by_cases h₁ : d.badCount i = true
  · simp [h₁, ofDriver]
  · have hmeta : (ofDriver d i).noMetadata = d.noMetadata i := rfl
    have hpcm : (((ofDriver d i).produce []).run.pb.bufferedFrames < ((ofDriver d i).produce []).frameCounts.sum) =
        (d.pb.bufferedFrames < (d.implicitPlan i).sum) := rfl
    simp only [if_neg h₁, loop, turn, hmeta, hpcm]
    by_cases h₂ : d.noMetadata i = true
    · simp [h₂, ofDriver]
    · simp only [if_neg h₂]
      by_cases h₃ : d.pb.bufferedFrames < (d.implicitPlan i).sum
      · have h₃' : d.noPcm i = true := by simpa [Driver.noPcm] using h₃
        simp [h₃, h₃', ofDriver, produce]
      · have h₃' : ¬d.noPcm i = true := by simpa [Driver.noPcm] using h₃
        simp only [if_neg h₃, if_neg h₃', if_true]
        obtain ⟨hpb, hx⟩ := refill_interleaved_nil d.stride 0 (d.implicitPlan i) { pb := d.pb } (d.transfers i)
        refine ⟨trivial, hpb, rfl, ?_, rfl, rfl⟩
        show _ = Function.update d.transfers i _ i
        rw [Function.update_self]
        exact hx

end ImplicitTransfer

open PlaybackRun ImplicitTransfer in
/-- `prepareImplicitTransfer` on any ring that its clients can reach, any layout FIFO and any transfer, with any
number of failed exchanges and any writes of the render thread in between. False: the read cursor, the tail, the
played frames and the transfer are as they were. True: the cursor moves by the packet count, every packet has the
clamped length of its entry, exactly these bytes left the ring, into the packets, and no drain was short. -/
theorem prepareImplicitTransfer_all_or_nothing {w : Nat} (p p₀ : Playback w) (streaming : Bool)
    (c : UserspaceBufferConfig) (hcfg : p.configureUserspaceBuffers streaming c = some p₀) (as : List PlaybackAct)
    (fifo : MetaFifo) (maxFramesPerPacket : Nat) (x : Transfer) (failed : List (List PlaybackAct))
    (last : List PlaybackAct) (env : Nat → List PlaybackAct) (hfailed : ∀ acts ∈ failed, ProducerActs acts)
    (hlast : ProducerActs last) (henv : ∀ i, ProducerActs (env i)) :
    let s : ImplicitTransfer w := { run := run PlaybackRun.step { pb := p₀ } as, fifo, maxFramesPerPacket, xfr := x }
    let r := s.prepareImplicitTransfer failed last env
    let total := ((List.range x.numIsoPackets).map fun k =>
      min (fifo.entry (fifo.implicitRead + k)) maxFramesPerPacket).sum
    (r.2 = false → r.1.fifo.implicitRead = fifo.implicitRead ∧ r.1.run.pb.ring.tail = s.run.pb.ring.tail ∧
      r.1.run.pb.playedFrames = s.run.pb.playedFrames ∧ r.1.run.drained = s.run.drained ∧
      r.1.xfr.lengths = x.lengths ∧ r.1.xfr.buffer = x.buffer) ∧
    (r.2 = true → r.1.fifo.implicitRead = fifo.implicitRead + x.numIsoPackets ∧
      r.1.xfr.lengths = (List.range x.numIsoPackets).map (fun k =>
        min (fifo.entry (fifo.implicitRead + k)) maxFramesPerPacket * p₀.stride) ∧
      r.1.run.pb.ring.tail = s.run.pb.ring.tail + BitVec.ofNat w (total * p₀.stride) ∧
      r.1.run.drained = s.run.drained ++ r.1.xfr.payload ∧ r.1.xfr.payload.length = total * p₀.stride ∧
      r.1.run.pb.playbackUnderruns = s.run.pb.playbackUnderruns ∧
      r.1.run.pb.playbackShortPackets = s.run.pb.playbackShortPackets ∧
      r.1.run.pb.playbackShortFrames = s.run.pb.playbackShortFrames) := by
  intro s r total
  obtain ⟨z, hring, -⟩ := Playback.configureUserspaceBuffers_ring hcfg
  have hinv : s.run.Inv := run_invariant (fun _ a hs => hs.step a) (PlaybackRun.Inv.start hring) as
  have hstride : s.run.pb.stride = p₀.stride :=
    run_invariant (I := fun s' : PlaybackRun w => s'.pb.stride = p₀.stride) (fun s' a h => (step_stride s' a).trans h) rfl as
  obtain ⟨hfalse, htrue⟩ := prepareImplicitTransfer_cases hinv env hfailed hlast
  constructor
  · intro he
    have hsame := hfalse he
    have hside := hsame.side
    simp only [Playback.consumerSide, Prod.mk.injEq] at hside
    exact ⟨congrArg MetaFifo.implicitRead hsame.fifo, hside.1, hside.2.1, hsame.drained,
      congrArg Transfer.lengths hsame.xfr, congrArg Transfer.buffer hsame.xfr⟩
  · intro he
    obtain ⟨s', hs', hpcm, heq⟩ := htrue he
    have hlen : s.frameCounts.length = s'.count := by
      rw [count, hs'.xfr]
      simp [ImplicitTransfer.frameCounts, MetaFifo.frameCounts, count]
    rw [← hs'.stride] at hpcm
    obtain ⟨hlens, hdrained, hconsumed⟩ := fill_exact (s := { s' with fifo := s.fifo.take s.count }) hs'.inv henv hlen hpcm
    have hstride' : s'.run.pb.stride = p₀.stride := hs'.stride.trans hstride
    have hside := hconsumed.side
    have hside' := hs'.side
    simp only [Playback.consumerSide, Prod.mk.injEq] at hside hside'
    rw [← heq] at hlens hdrained hside
    rw [hstride'] at hlens hside
    have hlengths : r.1.xfr.lengths = s.frameCounts.map (· * p₀.stride) := hlens
    refine ⟨?_, ?_, ?_, ?_, ?_, ?_, ?_, ?_⟩
    · rw [heq]
      rfl
    · rw [hlengths]
      simp only [ImplicitTransfer.frameCounts, MetaFifo.frameCounts, List.map_map]
      rfl
    · rw [← hside'.1]
      exact hside.1
    · rw [← hs'.drained]
      exact hdrained
    · rw [Transfer.payload_eq_copyOut, copyOut_length, hlengths, List.sum_map_mul_right, List.map_id']
      rfl
    · exact hside.2.2.1.trans hside'.2.2.1
    · exact hside.2.2.2.1.trans hside'.2.2.2.1
    · exact hside.2.2.2.2.trans hside'.2.2.2.2

open PlaybackRun ImplicitTransfer in
/-- Entries of one, no and nine frames, the last clamped to three, with three frames in the ring: nothing is taken. If
the render thread commits a frame before the count, and one exchange fails, the transfer is filled. -/
theorem prepareImplicitTransfer_all_or_nothing_three :
    ∃ s : ImplicitTransfer 64, ∃ late : List PlaybackAct,
      let r := s.prepareImplicitTransfer [late] [] fun _ => late
      (s.prepareImplicitTransfer [] [] fun _ => []).2 = false ∧ r.2 = true ∧ r.1.xfr.lengths = [4, 0, 12] ∧
      r.1.run.drained = s.run.drained ++ r.1.xfr.payload ∧
      r.1.run.pb.playbackShortPackets = s.run.pb.playbackShortPackets := by
  let p₀ : Playback 64 := { ring := Ring.assign .smallest, format := { channels := 2, bytesPerSample := 2 } }
  have hcfg : p₀.configureUserspaceBuffers false { ringCapacityBytes := 4096 } = some p₀ := rfl
  let fifo : MetaFifo := { implicitFrames := fun k => if k = 1 then 0 else if k = 2 then 9 else 1, implicitWrite := 3 }
  let x : Transfer := { packets := [{}, {}, {}], bufferBytes := 36 }
  let late : List PlaybackAct := [.prepare 1, .commit]
  have hlate : ProducerActs late := by simp [ProducerActs, late]
  have h := prepareImplicitTransfer_all_or_nothing p₀ p₀ false _ hcfg [.prepare 3, .commit] fifo 3 x [late] []
    (fun _ => late) (by simpa using hlate) (by simp [ProducerActs]) fun _ => hlate
  have htrue := h.2 (by decide)
  exact ⟨_, late, by decide, by decide, by decide, htrue.2.2.2.1, htrue.2.2.2.2.2.2.1⟩

end UacDriver

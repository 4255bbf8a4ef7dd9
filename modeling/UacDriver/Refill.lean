import UacDriver.PlaybackFifo
import UacDriver.MetaFifo
import UacDriver.Transfer
import Mathlib.Algebra.Group.Action.Defs

/-!
# Planning and refilling an OUT transfer

Three branches decide how many frames each packet of a completed OUT transfer asks for: the nominal
scheduler, the explicit feedback rate, and the capture layout of an implicit-feedback sink. All three then
run the same refill loop. `interleaved` is a drain with a producer running before it, which is how the loop
meets the render thread: the result about the payload is proved for any such interleaving.
-/

namespace UacDriver

open Circular Runs

structure Pacing where
  maxFramesPerPacket : Nat := 0
  nominalScheduler : RationalPacketScheduler := {}
  framesPerUframe_q16 : UInt32 := 0
  fracAccumulator_q16 : UInt32 := 0

namespace Pacing

/-- `static_cast<int>` of the scheduled count; a count that is not positive falls back to the rate. -/
def resolveFrames (rate scheduled : UInt32) : Nat :=
  if scheduled.toInt32 ≤ 0 then (rate >>> 16).toNat else scheduled.toNat

/-- One turn of the packet loop in `onIso`: the frames planned and the pacing state after it. -/
def planPacket (pc : Pacing) (feedbackEndpointAddress : Nat) : Nat × Pacing :=
  if feedbackEndpointAddress = 0 then
    let (scheduled, nominalScheduler) := pc.nominalScheduler.next
    (min (resolveFrames pc.framesPerUframe_q16 scheduled) pc.maxFramesPerPacket, { pc with nominalScheduler })
  else
    let acc := pc.fracAccumulator_q16 + pc.framesPerUframe_q16
    (min (resolveFrames pc.framesPerUframe_q16 (acc >>> 16)) pc.maxFramesPerPacket,
      { pc with fracAccumulator_q16 := acc &&& 0xFFFF })

def planPackets (pc : Pacing) (feedbackEndpointAddress : Nat) : Nat → List Nat × Pacing
  | 0 => ([], pc)
  | n + 1 =>
    let (frames, pc') := pc.planPacket feedbackEndpointAddress
    let (plan, pc'') := pc'.planPackets feedbackEndpointAddress n
    (frames :: plan, pc'')

@[simp] theorem planPacket_max (pc : Pacing) (fb : Nat) :
    (pc.planPacket fb).2.maxFramesPerPacket = pc.maxFramesPerPacket := by
  unfold planPacket; split <;> rfl

theorem planPacket_le (pc : Pacing) (fb : Nat) : (pc.planPacket fb).1 ≤ pc.maxFramesPerPacket := by
  unfold planPacket; split <;> exact Nat.min_le_right ..

@[simp] theorem planPackets_max (pc : Pacing) (fb n : Nat) :
    (pc.planPackets fb n).2.maxFramesPerPacket = pc.maxFramesPerPacket := by
  induction n generalizing pc with
  | zero => rfl
  | succ n ih => exact (ih _).trans (planPacket_max pc fb)

@[simp] theorem planPackets_length (pc : Pacing) (fb n : Nat) : (pc.planPackets fb n).1.length = n := by
  induction n generalizing pc with
  | zero => rfl
  | succ n ih => simp [planPackets, ih]

theorem planPackets_le (pc : Pacing) (fb n : Nat) : ∀ f ∈ (pc.planPackets fb n).1, f ≤ pc.maxFramesPerPacket := by
  induction n generalizing pc with
  | zero => simp [planPackets]
  | succ n ih =>
    intro f hf
    rcases List.mem_cons.1 hf with rfl | hf
    · exact planPacket_le pc fb
    · exact (planPacket_max pc fb) ▸ ih _ f hf

end Pacing

inductive PlanSource where
  /-- `onIso` without implicit feedback: nominal for address zero, explicit feedback otherwise. -/
  | scheduled (pc : Pacing) (feedbackEndpointAddress : Nat)
  /-- `prepareImplicitTransfer`, from `onIso` or `submitPendingImplicitTransfers`. -/
  | implicit (fifo : MetaFifo) (maxFramesPerPacket : Nat)

namespace PlanSource

def maxFramesPerPacket : PlanSource → Nat
  | scheduled pc _ => pc.maxFramesPerPacket
  | implicit _ maxFrames => maxFrames

def plan (n : Nat) : PlanSource → List Nat
  | scheduled pc fb => (pc.planPackets fb n).1
  | implicit fifo maxFrames => fifo.frameCounts n maxFrames

@[simp] theorem plan_length (src : PlanSource) (n : Nat) : (src.plan n).length = n := by
  cases src with
  | scheduled pc fb => exact pc.planPackets_length fb n
  | implicit fifo maxFrames => simp [plan, MetaFifo.frameCounts]

theorem plan_le (src : PlanSource) (n : Nat) : ∀ f ∈ src.plan n, f ≤ src.maxFramesPerPacket := by
  cases src with
  | scheduled pc fb => exact pc.planPackets_le fb n
  | implicit fifo maxFrames =>
    intro f hf
    obtain ⟨_, -, rfl⟩ := List.mem_map.1 hf
    exact Nat.min_le_right ..

end PlanSource

/-- A transfer as `startIsoPump` allocates it: `packets` descriptors, room for the largest packet in each. -/
structure Transfer.Allocated (x : Transfer) (packets maxFramesPerPacket stride : Nat) : Prop where
  numIsoPackets : x.numIsoPackets = packets
  bufferBytes : x.bufferBytes = maxFramesPerPacket * stride * packets

theorem Transfer.Allocated.refill {σ : Type*} {drain : Nat → Nat → σ → σ × List UInt8} {x : Transfer}
    {packets maxFrames stride : Nat} (h : x.Allocated packets maxFrames stride) (n : Nat) (plan : List Nat) (s : σ) :
    (refill drain n 0 plan (s, x)).2.Allocated packets maxFrames stride :=
  ⟨(refill_numIsoPackets ..).trans h.numIsoPackets, (refill_bufferBytes ..).trans h.bufferBytes⟩

namespace PlaybackRun

variable {w : Nat}

/-- The actions of the render thread and the control thread: all but a drain. -/
def ProducerActs (as : List PlaybackAct) : Prop := ∀ bytes, PlaybackAct.drain bytes ∉ as

/-- `drainRing` for packet `p` after the producer has done `env p`. -/
def interleaved (env : Nat → List PlaybackAct) (p bytes : Nat) (s : PlaybackRun w) : PlaybackRun w × List UInt8 :=
  let s := run step s (env p)
  (s.step (.drain bytes), (s.pb.drainRing bytes).2)

theorem step_drained {s : PlaybackRun w} {a : PlaybackAct} (h : ∀ bytes, a ≠ .drain bytes) :
    (s.step a).drained = s.drained := by
  cases a <;> simp only [step] <;> try rfl
  · split <;> rfl
  · split <;> rfl
  · exact absurd rfl (h _)

theorem run_drained {as : List PlaybackAct} (has : ProducerActs as) (s : PlaybackRun w) :
    (run step s as).drained = s.drained := by
  induction as generalizing s with
  | nil => rfl
  | cons a as ih =>
    rw [run_cons, ih fun b hb => has b (List.mem_cons_of_mem _ hb)]
    exact step_drained fun b hb => has b (hb ▸ List.mem_cons_self)

theorem interleaved_drained {env : Nat → List PlaybackAct} (henv : ∀ p, ProducerActs (env p)) (p bytes : Nat)
    (s : PlaybackRun w) :
    (interleaved env p bytes s).1.drained = s.drained ++ (interleaved env p bytes s).2 := by
  simp only [interleaved, step, run_drained (henv p)]

/-- What the refill loop relies on: the run invariant, whole frames in the ring, and the format. -/
structure WholeFrames (stride : Nat) (s : PlaybackRun w) : Prop where
  inv : s.Inv
  stride_eq : s.pb.stride = stride
  aligned : stride ∣ s.pb.ring.used

namespace WholeFrames

theorem step {stride : Nat} {s : PlaybackRun w} (h : s.WholeFrames stride) (a : PlaybackAct)
    (ha : ∀ bytes, a = .drain bytes → stride ∣ bytes) : (s.step a).WholeFrames stride := by
  refine ⟨h.inv.step a, (step_stride s a).trans h.stride_eq, ?_⟩
  have hal := h.inv.step_aligned a
  rw [h.stride_eq] at hal
  exact hal ha h.aligned

theorem run {stride : Nat} {s : PlaybackRun w} (h : s.WholeFrames stride) {as : List PlaybackAct}
    (has : WholeFrameDrains stride as) : (run PlaybackRun.step s as).WholeFrames stride := by
  induction as generalizing s with
  | nil => exact h
  | cons a as ih =>
    refine ih (h.step a fun b hb => has b (hb ▸ List.mem_cons_self)) fun b hb => has b (List.mem_cons_of_mem _ hb)

theorem interleaved {stride : Nat} {env : Nat → List PlaybackAct} (henv : ∀ p, ProducerActs (env p))
    {s : PlaybackRun w} (h : s.WholeFrames stride) (p frames : Nat) :
    (PlaybackRun.interleaved env p (frames * stride) s).1.WholeFrames stride ∧
    stride ∣ (PlaybackRun.interleaved env p (frames * stride) s).2.length ∧
    (PlaybackRun.interleaved env p (frames * stride) s).2.length ≤ frames * stride := by
  have h₁ : (Runs.run PlaybackRun.step s (env p)).WholeFrames stride :=
    h.run fun b hb => absurd hb (henv p b)
  refine ⟨h₁.step (.drain (frames * stride)) fun b hb => ?_, ?_, ?_⟩
  · cases hb; exact Nat.dvd_mul_left ..
  · simp only [PlaybackRun.interleaved, Playback.drainRing_length, Playback.drainCount]
    rcases Nat.le_total (Runs.run PlaybackRun.step s (env p)).pb.ring.used (frames * stride) with hle | hle
    · rw [Nat.min_eq_left hle]; exact h₁.aligned
    · rw [Nat.min_eq_right hle]; exact Nat.dvd_mul_left ..
  · simp only [PlaybackRun.interleaved, Playback.drainRing_length]
    exact Playback.drainCount_le _

end WholeFrames

end PlaybackRun

open PlaybackRun in
/-- A refilled OUT transfer, whichever branch planned it and whatever the producer did between its drains:
its packets, read back to back, are the bytes the refill removed from the ring, in ring order; every length
is whole frames within the packet limit; the payload fits the buffer. -/
theorem refill_payload_is_drained {w : Nat} (p p₀ : Playback w) (streaming : Bool) (c : UserspaceBufferConfig)
    (hcfg : p.configureUserspaceBuffers streaming c = some p₀)
    (as : List PlaybackAct) (has : WholeFrameDrains p₀.stride as)
    (env : Nat → List PlaybackAct) (henv : ∀ i, ProducerActs (env i))
    (src : PlanSource) (packets : Nat) (x : Transfer) (hx : x.Allocated packets src.maxFramesPerPacket p₀.stride) :
    let s := run PlaybackRun.step { pb := p₀ } as
    let r := refill (interleaved env) p₀.stride 0 (src.plan packets) (s, x)
    r.1.drained = s.drained ++ r.2.payload ∧ r.1.committed = r.1.drained ++ r.1.pb.ring.contents ∧
    (∀ n ∈ r.2.lengths, p₀.stride ∣ n ∧ n ≤ src.maxFramesPerPacket * p₀.stride) ∧
    r.2.lengths.sum ≤ r.2.bufferBytes ∧ r.2.Allocated packets src.maxFramesPerPacket p₀.stride := by
  obtain ⟨z, hring, -⟩ := Playback.configureUserspaceBuffers_ring hcfg
  intro s r
  have h₀ : WholeFrames p₀.stride { pb := p₀ } :=
    ⟨.start hring, rfl, by show p₀.stride ∣ p₀.ring.used; rw [hring]; simp [Ring.used, Ring.assign]⟩
  have hs : s.WholeFrames p₀.stride := h₀.run has
  have hlen : (src.plan packets).length = (s, x).2.numIsoPackets := by simp [hx.numIsoPackets]
  -- every chunk is whole frames and within the packet limit
  obtain ⟨hinv, hchunk⟩ := drainAll_wholeFrames (I := WholeFrames p₀.stride)
    (fun i frames s' h => h.interleaved henv i frames) 0 (src.plan_le packets) hs
  have hlens : r.2.lengths = (drainAll (interleaved env) p₀.stride 0 (src.plan packets) s).2.map List.length :=
    refill_lengths _ _ hlen
  have hstate : r.1 = (drainAll (interleaved env) p₀.stride 0 (src.plan packets) s).1 := refill_fst ..
  have hlim : ∀ n ∈ r.2.lengths, p₀.stride ∣ n ∧ n ≤ src.maxFramesPerPacket * p₀.stride := by
    intro n hn
    rw [hlens] at hn
    obtain ⟨chunk, hc, rfl⟩ := List.mem_map.1 hn
    exact hchunk chunk hc
  have halloc : r.2.Allocated packets src.maxFramesPerPacket p₀.stride := hx.refill _ _ _
  refine ⟨?_, ?_, hlim, ?_, halloc⟩
  · rw [refill_payload _ _ hlen, ← drainAll_log (interleaved_drained henv), hstate]
  · rw [hstate]
    exact hinv.inv.fifo
  · have hsum := List.sum_le_card_nsmul r.2.lengths _ fun n hn => (hlim n hn).2
    rwa [Transfer.lengths_length, halloc.numIsoPackets, smul_eq_mul, Nat.mul_comm, ← halloc.bufferBytes] at hsum

open PlaybackRun in
/-- Four bytes a frame, three frames committed: a nominal plan of two packets of two frames runs short in the
second packet, and a producer that commits two more frames there fills it up. -/
theorem refill_payload_is_drained_short :
    ∃ p₀ : Playback 64, ∃ x : Transfer, ∃ src : PlanSource, ∃ as : List PlaybackAct, ∃ env : Nat → List PlaybackAct,
      let s := run PlaybackRun.step { pb := p₀ } as
      let r := refill (interleaved env) p₀.stride 0 (src.plan 2) (s, x)
      src.plan 2 = [2, 2] ∧ s.pb.ring.used = 12 ∧
      (refill (interleaved fun _ => []) p₀.stride 0 (src.plan 2) (s, x)).2.lengths = [8, 4] ∧
      r.2.lengths = [8, 8] ∧ r.1.drained = s.drained ++ r.2.payload := by
  let p₀ : Playback 64 :=
    { ring := Ring.assign ⟨4096, ⟨12, rfl⟩, by decide⟩, format := { channels := 2, bytesPerSample := 2 } }
  let x : Transfer := { bufferBytes := 3 * 4 * 2, packets := [{}, {}] }
  let src : PlanSource :=
    .scheduled { maxFramesPerPacket := 3, nominalScheduler := .reset 2000 1000, framesPerUframe_q16 := 131072 } 0
  let as : List PlaybackAct := [.prepare 3, .fillFirst 0 [1, 2, 3, 4, 5, 6, 7, 8, 9, 10, 11, 12], .commit]
  let env : Nat → List PlaybackAct := fun i => if i = 1 then [.prepare 2, .commit] else []
  have hcfg : p₀.configureUserspaceBuffers false { ringCapacityBytes := 4096 } = some p₀ := rfl
  have has : WholeFrameDrains p₀.stride as := by simp [WholeFrameDrains, as]
  have henv : ∀ i, ProducerActs (env i) := by
    intro i; by_cases hi : i = 1 <;> simp [env, hi, ProducerActs]
  exact ⟨p₀, x, src, as, env, by decide, by decide, by decide, by decide,
    (refill_payload_is_drained p₀ p₀ false _ hcfg as has env henv src 2 x ⟨rfl, rfl⟩).1⟩

end UacDriver

import UacDriver.Scheduling
import UacDriver.Lib.Circular
import Mathlib.Algebra.Order.BigOperators.Group.List

/-!
# Isochronous transfers and their payload layout

A transfer is one buffer and a list of packet descriptors. The packets lie back to back: packet `p` starts
at the sum of the lengths of the packets before it (`libusb_get_iso_packet_buffer`), and the host controller
reads them there. `refill` is the loop shared by `onIso` and `prepareImplicitTransfer`: set the planned
length, drain into the packet's place, shorten the descriptor to what was drained. It is written over an
arbitrary `drain`, so that the same loop runs on the ring alone and on the ring with a producer running
between two drains.
-/

namespace UacDriver

open Circular

/-- `libusb_transfer_status`. -/
inductive TransferStatus where
  | completed | error | timedOut | cancelled | stall | noDevice | overflow
  deriving DecidableEq, Repr

/-- `libusb_iso_packet_descriptor`. -/
structure IsoPacket where
  length : Nat := 0
  actualLength : Nat := 0
  status : TransferStatus := .completed
  deriving DecidableEq

/-- `libusb_transfer`: `bufferBytes` is the allocated size of `buffer`. -/
structure Transfer where
  buffer : Nat → UInt8 := fun _ => 0
  bufferBytes : Nat := 0
  packets : List IsoPacket := []
  status : TransferStatus := .completed

namespace Transfer

variable (x : Transfer)

def numIsoPackets : Nat := x.packets.length

def lengths : List Nat := x.packets.map IsoPacket.length

/-- `libusb_get_iso_packet_buffer(xfr, p) - xfr->buffer`. -/
def isoPacketOffset (p : Nat) : Nat := (x.lengths.take p).sum

def setLength (p n : Nat) : Transfer := { x with packets := x.packets.modify p fun k => { k with length := n } }

def storeAt (off : Nat) (bytes : List UInt8) : Transfer := { x with buffer := blit x.buffer off bytes }

/-- What the host controller sends for packet `p`. -/
def packetBytes (p : Nat) : List UInt8 := copyOut x.buffer (x.isoPacketOffset p) (x.lengths.getD p 0)

def payload : List UInt8 := (List.range x.numIsoPackets).flatMap x.packetBytes

/-- The descriptor frames: every length divided by the stride, zero without a format. -/
def descriptorFrames (stride : Nat) : Nat := if stride = 0 then 0 else (x.lengths.map (· / stride)).sum

@[simp] theorem lengths_length : x.lengths.length = x.numIsoPackets := List.length_map ..

@[simp] theorem numIsoPackets_setLength (p n : Nat) : (x.setLength p n).numIsoPackets = x.numIsoPackets := by
  simp [numIsoPackets, setLength]

@[simp] theorem lengths_storeAt (off : Nat) (bytes : List UInt8) : (x.storeAt off bytes).lengths = x.lengths := rfl

@[simp] theorem lengths_setLength (p n : Nat) : (x.setLength p n).lengths = x.lengths.set p n := by
  refine List.ext_getElem? fun i => ?_
  simp only [lengths, setLength, List.getElem?_map, List.getElem?_modify, List.getElem?_set, List.length_map]
  by_cases h : p = i
  · subst h
    by_cases hp : p < x.packets.length
    · simp [hp]
    · simp [hp]
  · simp [h]

theorem sum_take_set (l : List Nat) (p n : Nat) : ((l.set p n).take p).sum = (l.take p).sum := by
  rw [List.take_set, List.set_eq_of_length_le (List.length_take_le ..)]

theorem sum_take_succ {l : List Nat} {p : Nat} (hp : p < l.length) :
    (l.take (p + 1)).sum = (l.take p).sum + l.getD p 0 := by
  rw [List.take_succ_eq_append_getElem hp, List.sum_append, List.sum_singleton,
    List.getD_eq_getElem?_getD, List.getElem?_eq_getElem hp, Option.getD_some]

theorem flatMap_packetBytes {n : Nat} (hn : n ≤ x.numIsoPackets) :
    (List.range n).flatMap x.packetBytes = copyOut x.buffer 0 (x.isoPacketOffset n) := by
  induction n with
  | zero => rfl
  | succ n ih =>
    have hoff : x.isoPacketOffset (n + 1) = x.isoPacketOffset n + x.lengths.getD n 0 :=
      sum_take_succ (by rw [lengths_length]; exact hn)
    rw [List.range_succ, List.flatMap_append, ih (Nat.le_of_succ_le hn), hoff, copyOut_add, Nat.zero_add]
    simp only [List.flatMap_cons, List.flatMap_nil, List.append_nil, packetBytes]

theorem payload_eq_copyOut : x.payload = copyOut x.buffer 0 x.lengths.sum := by
  have h : x.isoPacketOffset x.numIsoPackets = x.lengths.sum := by
    rw [isoPacketOffset, List.take_of_length_le (by simp)]
  rw [payload, flatMap_packetBytes x le_rfl, h]

end Transfer

/-! ### The refill loop -/

section Refill

variable {σ : Type*} (drain : Nat → Nat → σ → σ × List UInt8)

/-- One packet: planned length, drain into the packet's place, final length. -/
def fillPacket (p bytes : Nat) (st : σ × Transfer) : σ × Transfer :=
  let x := st.2.setLength p bytes
  if 0 < bytes then
    let (s, out) := drain p bytes st.1
    (s, (x.storeAt (x.isoPacketOffset p) out).setLength p out.length)
  else (st.1, x)

def refill (stride : Nat) : Nat → List Nat → σ × Transfer → σ × Transfer
  | _, [], st => st
  | p, frames :: plan, st => refill stride (p + 1) plan (fillPacket drain p (frames * stride) st)

/-- What `fillPacket` drains: nothing for an empty packet. -/
def packetDrain (p bytes : Nat) (s : σ) : σ × List UInt8 := if 0 < bytes then drain p bytes s else (s, [])

/-- The drains of `refill` alone: the state after them and the bytes of each packet. -/
def drainAll (stride : Nat) : Nat → List Nat → σ → σ × List (List UInt8)
  | _, [], s => (s, [])
  | p, frames :: plan, s =>
    let d := packetDrain drain p (frames * stride) s
    let r := drainAll stride (p + 1) plan d.1
    (r.1, d.2 :: r.2)

variable {drain}

theorem fillPacket_fst (p bytes : Nat) (st : σ × Transfer) :
    (fillPacket drain p bytes st).1 = (packetDrain drain p bytes st.1).1 := by
  unfold fillPacket packetDrain; split <;> rfl

@[simp] theorem fillPacket_numIsoPackets (p bytes : Nat) (st : σ × Transfer) :
    (fillPacket drain p bytes st).2.numIsoPackets = st.2.numIsoPackets := by
  unfold fillPacket; split
  · exact (Transfer.numIsoPackets_setLength ..).trans (Transfer.numIsoPackets_setLength ..)
  · exact Transfer.numIsoPackets_setLength ..

@[simp] theorem fillPacket_bufferBytes (p bytes : Nat) (st : σ × Transfer) :
    (fillPacket drain p bytes st).2.bufferBytes = st.2.bufferBytes := by
  unfold fillPacket; split <;> rfl

theorem fillPacket_lengths (p bytes : Nat) (st : σ × Transfer) :
    (fillPacket drain p bytes st).2.lengths = st.2.lengths.set p (packetDrain drain p bytes st.1).2.length := by
  unfold fillPacket packetDrain
  split
  · simp
  · rename_i h
    simp [Nat.eq_zero_of_not_pos h]

/-- `fillPacket` appends what it drained to the packets read so far. -/
theorem fillPacket_copyOut {p : Nat} (bytes : Nat) {st : σ × Transfer} (hp : p < st.2.numIsoPackets) :
    copyOut (fillPacket drain p bytes st).2.buffer 0 ((fillPacket drain p bytes st).2.isoPacketOffset (p + 1)) =
      copyOut st.2.buffer 0 (st.2.isoPacketOffset p) ++ (packetDrain drain p bytes st.1).2 := by
  have hlen : p < (st.2.lengths.set p (packetDrain drain p bytes st.1).2.length).length := by simpa using hp
  have hoff : (fillPacket drain p bytes st).2.isoPacketOffset (p + 1) =
      st.2.isoPacketOffset p + (packetDrain drain p bytes st.1).2.length := by
    rw [Transfer.isoPacketOffset, fillPacket_lengths, Transfer.sum_take_succ hlen, Transfer.sum_take_set]
    simp [Transfer.isoPacketOffset, List.getD_eq_getElem?_getD, hp]
  have hself : (st.2.setLength p bytes).isoPacketOffset p = st.2.isoPacketOffset p := by
    rw [Transfer.isoPacketOffset, Transfer.lengths_setLength, Transfer.sum_take_set, Transfer.isoPacketOffset]
  rw [hoff]
  unfold fillPacket packetDrain
  split
  · -- the packet is stored where the earlier ones end
    show copyOut (blit st.2.buffer ((st.2.setLength p bytes).isoPacketOffset p) _) _ _ = _
    rw [hself, copyOut_add, copyOut_blit_disjoint (by omega), Nat.zero_add, copyOut_blit_self]
  · simp [Transfer.setLength]

@[simp] theorem drainAll_length (stride p : Nat) (plan : List Nat) (s : σ) :
    (drainAll drain stride p plan s).2.length = plan.length := by
  induction plan generalizing p s with
  | nil => rfl
  | cons frames plan ih => simp [drainAll, ih]

theorem refill_fst (stride p : Nat) (plan : List Nat) (st : σ × Transfer) :
    (refill drain stride p plan st).1 = (drainAll drain stride p plan st.1).1 := by
  induction plan generalizing p st with
  | nil => rfl
  | cons frames plan ih => simp only [refill, drainAll, ih, fillPacket_fst]

@[simp] theorem refill_numIsoPackets (stride p : Nat) (plan : List Nat) (st : σ × Transfer) :
    (refill drain stride p plan st).2.numIsoPackets = st.2.numIsoPackets := by
  induction plan generalizing p st with
  | nil => rfl
  | cons frames plan ih => rw [refill, ih, fillPacket_numIsoPackets]

@[simp] theorem refill_bufferBytes (stride p : Nat) (plan : List Nat) (st : σ × Transfer) :
    (refill drain stride p plan st).2.bufferBytes = st.2.bufferBytes := by
  induction plan generalizing p st with
  | nil => rfl
  | cons frames plan ih => rw [refill, ih, fillPacket_bufferBytes]

variable (drain) in
theorem refill_lengths_from (stride : Nat) {p : Nat} {plan : List Nat} {st : σ × Transfer}
    (hp : p + plan.length = st.2.numIsoPackets) :
    (refill drain stride p plan st).2.lengths =
      st.2.lengths.take p ++ (drainAll drain stride p plan st.1).2.map List.length := by
  induction plan generalizing p st with
  | nil =>
    rw [List.length_nil, Nat.add_zero] at hp
    simp [refill, drainAll, List.take_of_length_le, hp]
  | cons frames plan ih =>
    have hp' : p < st.2.lengths.length := by simp at hp ⊢; omega
    rw [refill, ih (by simp at hp ⊢; omega), fillPacket_lengths, fillPacket_fst]
    have htake : (st.2.lengths.set p (packetDrain drain p (frames * stride) st.1).2.length).take (p + 1) =
        st.2.lengths.take p ++ [(packetDrain drain p (frames * stride) st.1).2.length] := by
      rw [List.take_succ_eq_append_getElem (by simpa using hp'), List.take_set,
        List.set_eq_of_length_le (List.length_take_le ..), List.getElem_set_self]
    simp only [htake, drainAll, List.map_cons, List.append_assoc, List.singleton_append]

variable (drain) in
theorem refill_copyOut (stride : Nat) {p : Nat} {plan : List Nat} {st : σ × Transfer}
    (hp : p + plan.length ≤ st.2.numIsoPackets) :
    copyOut (refill drain stride p plan st).2.buffer 0
        ((refill drain stride p plan st).2.isoPacketOffset (p + plan.length)) =
      copyOut st.2.buffer 0 (st.2.isoPacketOffset p) ++ (drainAll drain stride p plan st.1).2.flatten := by
  induction plan generalizing p st with
  | nil => simp [refill, drainAll]
  | cons frames plan ih =>
    rw [List.length_cons] at hp ⊢
    have hih := @ih (p + 1) (fillPacket drain p (frames * stride) st) (by simp; omega)
    rw [show p + (plan.length + 1) = p + 1 + plan.length by omega, refill, hih, fillPacket_copyOut _ (by omega),
      fillPacket_fst]
    simp only [drainAll, List.flatten_cons, List.append_assoc]

variable (drain) in
theorem refill_lengths (stride : Nat) {plan : List Nat} {st : σ × Transfer}
    (hp : plan.length = st.2.numIsoPackets) :
    (refill drain stride 0 plan st).2.lengths = (drainAll drain stride 0 plan st.1).2.map List.length := by
  simpa using refill_lengths_from drain stride (show 0 + plan.length = st.2.numIsoPackets by omega)

variable (drain) in
theorem refill_payload (stride : Nat) {plan : List Nat} {st : σ × Transfer}
    (hp : plan.length = st.2.numIsoPackets) :
    (refill drain stride 0 plan st).2.payload = (drainAll drain stride 0 plan st.1).2.flatten := by
  have hcopy := refill_copyOut drain stride (show 0 + plan.length ≤ st.2.numIsoPackets by omega)
  rw [Transfer.payload_eq_copyOut]
  have hoff : (refill drain stride 0 plan st).2.isoPacketOffset (0 + plan.length) =
      (refill drain stride 0 plan st).2.lengths.sum := by
    rw [Transfer.isoPacketOffset, List.take_of_length_le (by simp [hp])]
  rw [hoff] at hcopy
  simpa [Transfer.isoPacketOffset] using hcopy

/-- The drains of a refill as one history: `log` is any record of the drained bytes. -/
theorem drainAll_log {log : σ → List UInt8} (hlog : ∀ p b s, log (drain p b s).1 = log s ++ (drain p b s).2)
    (stride p : Nat) (plan : List Nat) (s : σ) :
    log (drainAll drain stride p plan s).1 = log s ++ (drainAll drain stride p plan s).2.flatten := by
  induction plan generalizing p s with
  | nil => simp [drainAll]
  | cons frames plan ih =>
    have h : log (packetDrain drain p (frames * stride) s).1 =
        log s ++ (packetDrain drain p (frames * stride) s).2 := by
      unfold packetDrain; split
      · exact hlog _ _ _
      · simp
    simp only [drainAll, ih, h, List.flatten_cons, List.append_assoc]

theorem refill_invariant {I : σ → Prop} (hdrain : ∀ p b s, I s → I (drain p b s).1) (stride p : Nat)
    (plan : List Nat) {st : σ × Transfer} (h : I st.1) : I (refill drain stride p plan st).1 := by
  induction plan generalizing p st with
  | nil => exact h
  | cons frames plan ih =>
    refine ih (p + 1) ?_
    rw [fillPacket_fst]
    unfold packetDrain; split
    · exact hdrain _ _ _ h
    · exact h

/-- If a drain of whole frames in an `I` state keeps `I` and hands over whole frames, at most those asked
for, then the packets of a refill hold whole frames within the plan's bound. -/
theorem drainAll_wholeFrames {I : σ → Prop} {stride bound : Nat}
    (hdrain : ∀ p frames s, I s → I (drain p (frames * stride) s).1 ∧
      stride ∣ (drain p (frames * stride) s).2.length ∧
      (drain p (frames * stride) s).2.length ≤ frames * stride)
    (p : Nat) {plan : List Nat} (hplan : ∀ frames ∈ plan, frames ≤ bound) {s : σ} (hI : I s) :
    I (drainAll drain stride p plan s).1 ∧
    ∀ chunk ∈ (drainAll drain stride p plan s).2, stride ∣ chunk.length ∧ chunk.length ≤ bound * stride := by
  induction plan generalizing p s with
  | nil => exact ⟨hI, nofun⟩
  | cons frames plan ih =>
    have hd : I (packetDrain drain p (frames * stride) s).1 ∧
        stride ∣ (packetDrain drain p (frames * stride) s).2.length ∧
        (packetDrain drain p (frames * stride) s).2.length ≤ frames * stride := by
      unfold packetDrain; split
      · exact hdrain p frames s hI
      · exact ⟨hI, by simp, by simp⟩
    obtain ⟨h₁, h₂⟩ := ih (p + 1) (fun f hf => hplan f (List.mem_cons_of_mem _ hf)) hd.1
    refine ⟨h₁, fun chunk hc => ?_⟩
    rcases List.mem_cons.1 hc with rfl | hc
    · exact ⟨hd.2.1, hd.2.2.trans (Nat.mul_le_mul_right _ (hplan frames List.mem_cons_self))⟩
    · exact h₂ chunk hc

variable (drain) in
/-- If the drains of a refill find all that is asked for, every packet gets exactly its plan. `avail` is what the state
can hand over, to which others may add; `I n` holds after `n` bytes. -/
theorem drainAll_exact (avail : σ → Nat) (I : Nat → σ → Prop) {stride : Nat}
    (hdrain : ∀ p frames n s, I n s → frames * stride ≤ avail s →
      I (n + frames * stride) (drain p (frames * stride) s).1 ∧
      (drain p (frames * stride) s).2.length = frames * stride ∧
      avail s ≤ avail (drain p (frames * stride) s).1 + frames * stride)
    (p : Nat) {plan : List Nat} {n : Nat} {s : σ} (hI : I n s) (h : plan.sum * stride ≤ avail s) :
    (drainAll drain stride p plan s).2.map List.length = plan.map (· * stride) ∧
    I (n + plan.sum * stride) (drainAll drain stride p plan s).1 := by
  induction plan generalizing p n s with
  | nil => exact ⟨rfl, by simpa [drainAll] using hI⟩
  | cons frames plan ih =>
    rw [List.sum_cons, Nat.add_mul] at h
    have hd : I (n + frames * stride) (packetDrain drain p (frames * stride) s).1 ∧
        (packetDrain drain p (frames * stride) s).2.length = frames * stride ∧
        avail s ≤ avail (packetDrain drain p (frames * stride) s).1 + frames * stride := by
      unfold packetDrain; split
      · exact hdrain p frames n s hI (by omega)
      · rename_i h0
        rw [Nat.eq_zero_of_not_pos h0]; exact ⟨hI, rfl, le_rfl⟩
    obtain ⟨hlens, hlast⟩ := ih (p + 1) hd.1 (by omega)
    simp only [drainAll, List.map_cons, hd.2.1, hlens, List.sum_cons, Nat.add_mul, ← Nat.add_assoc]
    exact ⟨trivial, hlast⟩

end Refill

end UacDriver

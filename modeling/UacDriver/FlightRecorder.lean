import UacDriver.Lib.Circular
import UacDriver.Lib.Runs
import Mathlib.Data.Nat.Bitwise
import Mathlib.Logic.Function.Basic

/-!
# The packet flight recorder

`PacketFlightRecorder` keeps the newest events of a session in a ring of records. For serialised calls it refines a log
that only grows: a snapshot is the tail of the log, whatever has wrapped, been masked out or come after the trigger.
The relation between the two says nothing of the frozen flag while the recorder is off, since switching it off thaws it.
-/

namespace UacDriver

open Runs Circular

namespace PacketFlightRecorder

inductive Event where
  | unknown
  | playbackComplete
  | quantumOffered
  | quantumRefused
  | captureComplete
  | playbackUnderrun
  | transferDeferred
  | deferredNoMetadata
  | deferredNoPcm
  | signalDiscontinuity
  | transferDiscontinuity
  | captureDiscontinuity
  | captureModulation
  | quantumLost
  deriving DecidableEq, Repr

/-- `static_cast<uint16_t>(event)`. -/
def Event.code : Event → Nat
  | unknown => 0
  | playbackComplete => 1
  | quantumOffered => 2
  | quantumRefused => 3
  | captureComplete => 4
  | playbackUnderrun => 5
  | transferDeferred => 6
  | deferredNoMetadata => 7
  | deferredNoPcm => 8
  | signalDiscontinuity => 9
  | transferDiscontinuity => 10
  | captureDiscontinuity => 11
  | captureModulation => 12
  | quantumLost => 13

structure Record where
  sequence : UInt64 := 0
  timestampNs : UInt64 := 0
  a : UInt32 := 0
  b : UInt32 := 0
  ringFrames : UInt32 := 0
  queuedFrames : UInt32 := 0
  event : Event := .unknown
  reserved : UInt16 := 0
  deriving DecidableEq

end PacketFlightRecorder

open PacketFlightRecorder

/-- The recorder; a slot is found by the low bits of its sequence number. -/
structure PacketFlightRecorder where
  records : Nat → Record := fun _ => {}
  capacity : Nat
  mask : Nat
  nextSequence : UInt64 := 0
  enabled : Bool := false
  frozen : Bool := false
  freezeTrigger : Event := .unknown
  eventMask : UInt32 := 0

namespace PacketFlightRecorder

/-- The loop of the constructor, which doubles the capacity at most twenty times. -/
def grow (requestedCapacity : Nat) : Nat → Nat → Nat
  | 0, capacity => capacity
  | rounds + 1, capacity =>
    if capacity < requestedCapacity ∧ capacity < 1 <<< 20 then grow requestedCapacity rounds (capacity <<< 1) else capacity

def create (requestedCapacity : Nat) : PacketFlightRecorder :=
  let capacity := grow requestedCapacity 20 1
  { capacity, mask := capacity - 1 }

variable (r : PacketFlightRecorder)

def reset : PacketFlightRecorder :=
  { r with
    records := fun i => { r.records i with sequence := 0, event := .unknown }
    nextSequence := 0
    frozen := false }

def setEnabled (enabled : Bool) : PacketFlightRecorder :=
  { (if enabled then r.reset else r) with frozen := false, enabled }

def setEventMask (mask : UInt32) : PacketFlightRecorder := { r with eventMask := mask }

def setFreezeTrigger (trigger : Event) : PacketFlightRecorder := { r with freezeTrigger := trigger }

def maskOf (event : Event) : UInt32 := 1 <<< UInt32.ofNat event.code

def record (event : Event) (timestampNs : UInt64) (a b ringFrames queuedFrames : UInt32) : PacketFlightRecorder :=
  if !r.enabled then r
  else if r.frozen then r
  else if r.eventMask ≠ 0 ∧ r.eventMask &&& maskOf event = 0 then r
  else
    let sequence := r.nextSequence
    let slot := sequence.toNat &&& r.mask
    { r with
      nextSequence := sequence + 1
      records := Function.update r.records slot
        { r.records slot with timestampNs, a, b, ringFrames, queuedFrames, event, sequence := sequence + 1 }
      frozen := if event = r.freezeTrigger then true else r.frozen }

def recorded : UInt64 := r.nextSequence

def dropped : UInt64 :=
  let total := r.recorded
  if UInt64.ofNat r.capacity < total then total - UInt64.ofNat r.capacity else 0

/-- The records written to a buffer of `capacity`, if there is one. Positions stay below the total, so none wraps. -/
def snapshot (hasOut : Bool) (capacity : Nat) : List Record :=
  if !hasOut || capacity == 0 then []
  else
    let total := r.recorded.toNat
    let available := if total < r.capacity then total else r.capacity
    let first := total - available
    let wanted := if available < capacity then available else capacity
    let start := first + (available - wanted)
    (List.range wanted).map fun i => r.records ((start + i) &&& r.mask)

/-- What a producer records. -/
structure Entry where
  event : Event
  timestampNs : UInt64
  a : UInt32
  b : UInt32
  ringFrames : UInt32
  queuedFrames : UInt32
  deriving DecidableEq

def Record.entry (r : Record) : Entry := ⟨r.event, r.timestampNs, r.a, r.b, r.ringFrames, r.queuedFrames⟩

/-- A call of the recorder's interface. -/
inductive Call where
  | setEnabled (enabled : Bool)
  | setEventMask (mask : UInt32)
  | setFreezeTrigger (trigger : Event)
  | reset
  | record (e : Entry)

def Call.isRecord : Call → Bool
  | record _ => true
  | _ => false

/-- Producers record the named events only. -/
def Call.Named : Call → Prop
  | record e => e.event ≠ .unknown
  | _ => True

instance : (c : Call) → Decidable c.Named
  | .record e => inferInstanceAs (Decidable (e.event ≠ .unknown))
  | .setEnabled _ | .setEventMask _ | .setFreezeTrigger _ | .reset => isTrue trivial

def step (r : PacketFlightRecorder) : Call → PacketFlightRecorder
  | .setEnabled enabled => r.setEnabled enabled
  | .setEventMask mask => r.setEventMask mask
  | .setFreezeTrigger trigger => r.setFreezeTrigger trigger
  | .reset => r.reset
  | .record e => r.record e.event e.timestampNs e.a e.b e.ringFrames e.queuedFrames

end PacketFlightRecorder

/-! ### The log -/

/-- What a recorder is for: a log since the last reset or enable, which its trigger closes. -/
structure EventLog where
  enabled : Bool := false
  eventMask : UInt32 := 0
  armed : Option Event := none
  closed : Bool := false
  entries : List Entry := []

namespace EventLog

/-- A mask of zero selects every event. -/
def Selects (eventMask : UInt32) (event : Event) : Prop := eventMask = 0 ∨ eventMask.toNat.testBit event.code

instance (eventMask : UInt32) (event : Event) : Decidable (Selects eventMask event) :=
  inferInstanceAs (Decidable (_ ∨ _))

def Accepts (l : EventLog) (event : Event) : Prop := l.enabled = true ∧ l.closed = false ∧ Selects l.eventMask event

instance (l : EventLog) (event : Event) : Decidable (l.Accepts event) := inferInstanceAs (Decidable (_ ∧ _ ∧ _))

def clear (l : EventLog) : EventLog := { l with closed := false, entries := [] }

def append (l : EventLog) (e : Entry) : EventLog :=
  { l with closed := l.armed == some e.event, entries := l.entries ++ [e] }

def step (l : EventLog) : Call → EventLog
  | .setEnabled enabled => { (if enabled then l.clear else l) with enabled }
  | .setEventMask mask => { l with eventMask := mask }
  | .setFreezeTrigger trigger => { l with armed := if trigger = .unknown then none else some trigger }
  | .reset => l.clear
  | .record e => if l.Accepts e.event then l.append e else l

/-- A log has no more entries than there were calls to record. -/
theorem length_entries_le (l : EventLog) (calls : List Call) :
    (run step l calls).entries.length ≤ l.entries.length + calls.countP Call.isRecord := by
  induction calls generalizing l with
  | nil => exact Nat.le_refl _
  | cons c calls ih =>
    have hrest := ih (l.step c)
    have hfirst : (l.step c).entries.length ≤ l.entries.length + if c.isRecord then 1 else 0 := by
      cases c with
      | setEnabled enabled => cases enabled <;> simp [step, clear]
      | setEventMask mask => exact Nat.le_refl _
      | setFreezeTrigger trigger => exact Nat.le_refl _
      | reset => exact Nat.zero_le _
      | record e =>
        change (if l.Accepts e.event then l.append e else l).entries.length ≤ l.entries.length + 1
        split
        · exact (List.length_append ..).le
        · exact Nat.le_add_right _ _
    rw [run_cons, List.countP_cons]
    omega

end EventLog

/-! ### The refinement -/

namespace PacketFlightRecorder

theorem exists_grow_eq (requestedCapacity rounds k : Nat) : ∃ j, grow requestedCapacity rounds (2 ^ k) = 2 ^ (k + j) ∧
    j ≤ rounds := by
  induction rounds generalizing k with
  | zero => exact ⟨0, rfl, Nat.le_refl 0⟩
  | succ rounds ih =>
    unfold grow
    split
    · obtain ⟨j, hj, hle⟩ := ih (k + 1)
      refine ⟨j + 1, ?_, Nat.succ_le_succ hle⟩
      rw [Nat.shiftLeft_eq, pow_one, ← pow_succ, hj]
      congr 1
      omega
    · exact ⟨0, rfl, Nat.zero_le _⟩

/-- The twenty rounds are all that the loop makes: it has then left by its own test. -/
theorem grow_exit {requestedCapacity rounds k : Nat} (h : k + rounds = 20) :
    ¬ (grow requestedCapacity rounds (2 ^ k) < requestedCapacity ∧ grow requestedCapacity rounds (2 ^ k) < 1 <<< 20) := by
  induction rounds generalizing k with
  | zero =>
    obtain rfl : k = 20 := h
    exact fun hlt => absurd hlt.2 (Nat.lt_irrefl _)
  | succ rounds ih =>
    unfold grow
    split
    · rw [Nat.shiftLeft_eq, pow_one, ← pow_succ]
      exact ih (by omega)
    · assumption

/-- A request of at most `2 ^ 20` records is met. -/
theorem le_capacity_create {requestedCapacity : Nat} (h : requestedCapacity ≤ 2 ^ 20) :
    requestedCapacity ≤ (create requestedCapacity).capacity := by
  have hexit : ¬ (grow requestedCapacity 20 (2 ^ 0) < requestedCapacity ∧
    grow requestedCapacity 20 (2 ^ 0) < 1 <<< 20) := grow_exit rfl
  change requestedCapacity ≤ grow requestedCapacity 20 (2 ^ 0)
  omega

/-- The record of the log's entry number `i`. -/
def Entry.toRecord (e : Entry) (i : Nat) : Record where
  sequence := UInt64.ofNat (i + 1)
  timestampNs := e.timestampNs
  a := e.a
  b := e.b
  ringFrames := e.ringFrames
  queuedFrames := e.queuedFrames
  event := e.event

/-- The recorder holds the tail of the log. -/
structure Refines (r : PacketFlightRecorder) (l : EventLog) : Prop where
  capacity : ∃ k ≤ 20, r.capacity = 2 ^ k
  mask : r.mask = r.capacity - 1
  enabled : r.enabled = l.enabled
  eventMask : r.eventMask = l.eventMask
  trigger : l.armed = if r.freezeTrigger = .unknown then none else some r.freezeTrigger
  frozen : r.enabled = true → r.frozen = l.closed
  count : r.nextSequence = UInt64.ofNat l.entries.length
  slots : ∀ i e, l.entries[i]? = some e → l.entries.length ≤ i + r.capacity → r.records (i % r.capacity) = e.toRecord i
  reserved : ∀ i, (r.records i).reserved = 0

namespace Refines

variable {r : PacketFlightRecorder} {l : EventLog}

theorem and_mask (h : Refines r l) (n : Nat) : n &&& r.mask = n % r.capacity := by
  obtain ⟨k, -, hk⟩ := h.capacity
  rw [h.mask, hk, Nat.and_two_pow_sub_one_eq_mod]

/-- Sequence numbers wrap at a multiple of the capacity. -/
theorem slot (h : Refines r l) : r.nextSequence.toNat &&& r.mask = l.entries.length % r.capacity := by
  obtain ⟨k, hk, hcap⟩ := h.capacity
  rw [h.and_mask, h.count, UInt64.toNat_ofNat', hcap, Nat.mod_mod_of_dvd _ (Nat.pow_dvd_pow 2 (by omega))]

theorem create (requestedCapacity : Nat) : Refines (create requestedCapacity) {} where
  capacity := by
    obtain ⟨j, hj, hle⟩ := exists_grow_eq requestedCapacity 20 0
    exact ⟨0 + j, by omega, hj⟩
  mask := rfl
  enabled := rfl
  eventMask := rfl
  trigger := rfl
  frozen := fun h => absurd h Bool.false_ne_true
  count := rfl
  slots := fun i e he => absurd he (by simp)
  reserved := fun _ => rfl

theorem reset (h : Refines r l) : Refines r.reset l.clear where
  capacity := h.capacity
  mask := h.mask
  enabled := h.enabled
  eventMask := h.eventMask
  trigger := h.trigger
  frozen := fun _ => rfl
  count := rfl
  slots := fun i e he => absurd he (by simp [EventLog.clear])
  reserved := h.reserved

/-- Switching off thaws the recorder, which records nothing until switching on clears it. -/
theorem setEnabled (h : Refines r l) (enabled : Bool) :
    Refines (r.setEnabled enabled) (l.step (.setEnabled enabled)) := by
  cases enabled with
  | true => exact { h.reset with enabled := rfl, frozen := fun _ => rfl }
  | false => exact { h with enabled := rfl, frozen := fun hon => absurd hon Bool.false_ne_true }

theorem setFreezeTrigger (h : Refines r l) (trigger : Event) :
    Refines (r.setFreezeTrigger trigger) (l.step (.setFreezeTrigger trigger)) :=
  { h with trigger := rfl }

/-- The test of the event mask. -/
theorem selects_iff (eventMask : UInt32) (event : Event) :
    ¬ (eventMask ≠ 0 ∧ eventMask &&& maskOf event = 0) ↔ EventLog.Selects eventMask event := by
  have hbit : (maskOf event).toNat = 2 ^ event.code := by cases event <;> rfl
  have hand : eventMask &&& maskOf event = 0 ↔ ¬ eventMask.toNat.testBit event.code = true := by
    rw [← UInt32.toNat_inj, UInt32.toNat_and, hbit, Nat.and_two_pow]
    cases eventMask.toNat.testBit event.code <;> simp
  rw [hand]
  unfold EventLog.Selects
  tauto

/-- The slot an entry goes to, all of it overwritten. -/
theorem written_eq (h : Refines r l) (e : Entry) :
    { r.records (r.nextSequence.toNat &&& r.mask) with
      timestampNs := e.timestampNs, a := e.a, b := e.b, ringFrames := e.ringFrames, queuedFrames := e.queuedFrames
      event := e.event, sequence := r.nextSequence + 1 } = e.toRecord l.entries.length := by
  have hreserved := h.reserved (r.nextSequence.toNat &&& r.mask)
  have hsequence : r.nextSequence + 1 = UInt64.ofNat (l.entries.length + 1) := by rw [h.count, UInt64.ofNat_add]; rfl
  unfold Entry.toRecord
  dsimp only
  rw [hreserved, hsequence]

theorem record_of_accepts (h : Refines r l) {e : Entry} (he : l.Accepts e.event) :
    r.step (.record e) = { r with
      nextSequence := UInt64.ofNat (l.entries.length + 1)
      records := Function.update r.records (l.entries.length % r.capacity) (e.toRecord l.entries.length)
      frozen := if e.event = r.freezeTrigger then true else false } := by
  obtain ⟨hon, hopen, hselects⟩ := he
  have hon' : r.enabled = true := h.enabled.trans hon
  have hthawed : r.frozen = false := (h.frozen hon').trans hopen
  have hsequence : r.nextSequence + 1 = UInt64.ofNat (l.entries.length + 1) := by rw [h.count, UInt64.ofNat_add]; rfl
  change r.record _ _ _ _ _ _ = _
  unfold PacketFlightRecorder.record
  rw [if_neg (by rw [hon']; exact Bool.false_ne_true), if_neg (by rw [hthawed]; exact Bool.false_ne_true),
    if_neg ((selects_iff _ _).2 (h.eventMask ▸ hselects))]
  dsimp only
  rw [h.written_eq e, h.slot, hsequence, hthawed]

theorem record_of_not_accepts (h : Refines r l) {e : Entry} (he : ¬ l.Accepts e.event) : r.step (.record e) = r := by
  change r.record _ _ _ _ _ _ = r
  unfold PacketFlightRecorder.record
  split
  · rfl
  rename_i hon
  split
  · rfl
  rename_i hthawed
  split
  · rfl
  rename_i hselects
  refine absurd ⟨?_, ?_, ?_⟩ he
  · rw [← h.enabled]
    simpa using hon
  · rw [← h.frozen (by simpa using hon)]
    simpa using hthawed
  · rw [← h.eventMask]
    exact (selects_iff _ _).1 hselects

/-- The slots of the tail, of which the new entry may take that of the oldest. -/
theorem slots_append (h : Refines r l) (e e' : Entry) {i : Nat} (hi : (l.entries ++ [e])[i]? = some e')
    (hfit : l.entries.length + 1 ≤ i + r.capacity) :
    Function.update r.records (l.entries.length % r.capacity) (e.toRecord l.entries.length) (i % r.capacity) =
      e'.toRecord i := by
  rcases Nat.lt_trichotomy i l.entries.length with hlt | rfl | hgt
  · rw [List.getElem?_append_left hlt] at hi
    rw [Function.update_of_ne (slot_ne hlt (by omega))]
    exact h.slots i e' hi (by omega)
  · rw [List.getElem?_concat_length, Option.some.injEq] at hi
    rw [Function.update_self, hi]
  · rw [List.getElem?_eq_none (by rw [List.length_append, List.length_singleton]; omega)] at hi
    exact absurd hi.symm (Option.some_ne_none e')

theorem record (h : Refines r l) {e : Entry} (hnamed : e.event ≠ .unknown) :
    Refines (r.step (.record e)) (l.step (.record e)) := by
  by_cases he : l.Accepts e.event
  · rw [h.record_of_accepts he, show l.step (.record e) = l.append e from if_pos he]
    have hlen : (l.append e).entries.length = l.entries.length + 1 := List.length_append
    have hclosed : (if e.event = r.freezeTrigger then true else false) = (l.armed == some e.event) := by
      rw [h.trigger]
      by_cases hoff : r.freezeTrigger = .unknown
      · rw [if_pos hoff, hoff, if_neg hnamed]
        rfl
      rw [if_neg hoff]
      by_cases heq : e.event = r.freezeTrigger
      · rw [if_pos heq, heq, beq_self_eq_true]
      · rw [if_neg heq, beq_eq_false_iff_ne.2 fun hsome => heq (Option.some.inj hsome).symm]
    exact
      { h with
        frozen := fun _ => hclosed
        count := by rw [hlen]
        slots := fun i e' hi hfit => h.slots_append e e' hi (hlen ▸ hfit)
        reserved := by
          intro i
          dsimp only
          by_cases hi : i = l.entries.length % r.capacity
          · rw [hi, Function.update_self]
            rfl
          · rw [Function.update_of_ne hi]
            exact h.reserved i }
  · rw [h.record_of_not_accepts he, show l.step (.record e) = l from if_neg he]
    exact h

theorem step (h : Refines r l) (c : Call) (hc : c.Named) : Refines (r.step c) (l.step c) := by
  cases c with
  | setEnabled enabled => exact h.setEnabled enabled
  | setEventMask mask => exact { h with eventMask := rfl }
  | setFreezeTrigger trigger => exact h.setFreezeTrigger trigger
  | reset => exact h.reset
  | record e => exact h.record hc

end Refines

/-- Every run of the recorder refines the log of its calls. -/
theorem run_refines (requestedCapacity : Nat) {calls : List Call} (hcalls : ∀ c ∈ calls, c.Named) :
    Refines (run step (create requestedCapacity) calls) (run EventLog.step {} calls) :=
  run_simulates (fun _ _ c hc h => h.step c hc) hcalls (.create requestedCapacity)

section Tail

variable {r : PacketFlightRecorder} {l : EventLog}

theorem Refines.recorded_toNat (h : Refines r l) (hlen : l.entries.length < 2 ^ 64) :
    r.recorded.toNat = l.entries.length := by
  unfold recorded
  rw [h.count, UInt64.toNat_ofNat', Nat.mod_eq_of_lt hlen]

theorem Refines.dropped_toNat (h : Refines r l) (hlen : l.entries.length < 2 ^ 64) :
    r.dropped.toNat = l.entries.length - r.capacity := by
  have hrecorded := h.recorded_toNat hlen
  have hcapacity : (UInt64.ofNat r.capacity).toNat = r.capacity := by
    obtain ⟨k, hk, hcap⟩ := h.capacity
    rw [UInt64.toNat_ofNat', Nat.mod_eq_of_lt]
    rw [hcap]
    exact Nat.pow_lt_pow_right (by decide) (by omega)
  unfold dropped
  dsimp only
  split
  · rename_i hlt
    rw [UInt64.toNat_sub_of_le _ _ (UInt64.le_of_lt hlt), hrecorded, hcapacity]
  · rename_i hlt
    rw [UInt64.lt_iff_toNat_lt, hrecorded, hcapacity] at hlt
    exact (Nat.sub_eq_zero_of_le (Nat.le_of_not_lt hlt)).symm

/-- The window of a snapshot: the newest records, at most as many as there are slots and places. -/
theorem Refines.snapshot_eq (h : Refines r l) (hlen : l.entries.length < 2 ^ 64) (n : Nat) :
    r.snapshot true n = (List.range (min n (min r.capacity l.entries.length))).map fun i =>
      r.records ((l.entries.length - min n (min r.capacity l.entries.length) + i) % r.capacity) := by
  unfold snapshot
  split
  · rename_i hzero
    obtain rfl : n = 0 := by simpa using hzero
    rw [Nat.zero_min]
    rfl
  dsimp only
  rw [h.recorded_toNat hlen]
  have havailable : (if l.entries.length < r.capacity then l.entries.length else r.capacity) =
      min r.capacity l.entries.length := by split <;> omega
  have hwanted : (if min r.capacity l.entries.length < n then min r.capacity l.entries.length else n) =
      min n (min r.capacity l.entries.length) := by split <;> omega
  rw [havailable, hwanted]
  refine List.map_congr_left fun i hi => ?_
  rw [h.and_mask]
  congr 2
  omega

/-- A record of the snapshot is the entry at its place in the log, under that entry's number. -/
theorem Refines.record_of_tail (h : Refines r l) {n i : Nat} (hi : i < min n (min r.capacity l.entries.length)) :
    ∃ e, l.entries[l.entries.length - min n (min r.capacity l.entries.length) + i]? = some e ∧
      r.records ((l.entries.length - min n (min r.capacity l.entries.length) + i) % r.capacity) =
        e.toRecord (l.entries.length - min n (min r.capacity l.entries.length) + i) := by
  have hlt : l.entries.length - min n (min r.capacity l.entries.length) + i < l.entries.length := by omega
  exact ⟨_, List.getElem?_eq_getElem hlt, h.slots _ _ (List.getElem?_eq_getElem hlt) (by omega)⟩

theorem Refines.snapshot_entries (h : Refines r l) (hlen : l.entries.length < 2 ^ 64) (n : Nat) :
    (r.snapshot true n).map Record.entry =
      l.entries.drop (l.entries.length - min n (min r.capacity l.entries.length)) := by
  rw [h.snapshot_eq hlen]
  apply List.ext_getElem?
  intro i
  rw [List.getElem?_map, List.getElem?_map, List.getElem?_drop]
  by_cases hi : i < min n (min r.capacity l.entries.length)
  · obtain ⟨e, he, hrecord⟩ := h.record_of_tail hi
    rw [List.getElem?_range hi, Option.map_some, Option.map_some, hrecord, he]
    rfl
  · rw [List.getElem?_eq_none (by rw [List.length_range]; omega), List.getElem?_eq_none (by omega)]
    rfl

theorem Refines.snapshot_sequences (h : Refines r l) (hlen : l.entries.length < 2 ^ 64) (n : Nat) :
    ((r.snapshot true n).map fun record => record.sequence.toNat) =
      List.range' (l.entries.length - min n (min r.capacity l.entries.length) + 1)
        (min n (min r.capacity l.entries.length)) := by
  rw [h.snapshot_eq hlen, List.range'_eq_map_range, List.map_map]
  refine List.map_congr_left fun i hi => ?_
  rw [List.mem_range] at hi
  obtain ⟨e, -, hrecord⟩ := h.record_of_tail hi
  rw [Function.comp_apply, hrecord]
  change (UInt64.ofNat _).toNat = _
  rw [UInt64.toNat_ofNat', Nat.mod_eq_of_lt (by omega)]
  omega

end Tail

/-- A snapshot is the end of the log of all calls: its newest entries with their fields, as many as the recorder and the
caller have room for, numbered up to the count of the recorder. What the recorder reports lost is the rest. -/
theorem snapshot_refines_log (requestedCapacity n : Nat) (calls : List Call) (hcalls : ∀ c ∈ calls, c.Named)
    (hcount : calls.countP Call.isRecord < 2 ^ 64) :
    let r := run step (create requestedCapacity) calls
    let log := (run EventLog.step {} calls).entries
    let k := min n (min r.capacity log.length)
    (r.snapshot true n).map Record.entry = log.drop (log.length - k) ∧
      ((r.snapshot true n).map fun record => record.sequence.toNat) = List.range' (log.length - k + 1) k ∧
      r.recorded.toNat = log.length ∧ r.dropped.toNat = log.length - r.capacity := by
  intro r log k
  have h : Refines r (run EventLog.step {} calls) := run_refines requestedCapacity hcalls
  have hlen : log.length < 2 ^ 64 := by
    have : log.length ≤ 0 + calls.countP Call.isRecord := EventLog.length_entries_le {} calls
    omega
  exact ⟨h.snapshot_entries hlen n, h.snapshot_sequences hlen n, h.recorded_toNat hlen, h.dropped_toNat hlen⟩

/-- Six events in a recorder of four, of which a trigger is the last: what comes after it is not recorded. -/
theorem snapshot_refines_log_frozen :
    let e : UInt64 → Event → Entry := fun k event => ⟨event, k, k.toUInt32, 0, 0, 0⟩
    let calls : List Call := [.setFreezeTrigger .quantumRefused, .setEnabled true, .record (e 1 .quantumOffered),
      .record (e 2 .quantumOffered), .record (e 3 .quantumOffered), .record (e 4 .quantumOffered),
      .record (e 5 .quantumOffered), .record (e 6 .quantumRefused), .record (e 7 .playbackComplete)]
    (∀ c ∈ calls, c.Named) ∧ calls.countP Call.isRecord < 2 ^ 64 ∧
      ((run step (create 3) calls).snapshot true 2).map Record.entry = [e 5 .quantumOffered, e 6 .quantumRefused] := by
  intro e calls
  exact ⟨by decide, by decide, (snapshot_refines_log 3 2 calls (by decide) (by decide)).1.trans (by decide)⟩

end PacketFlightRecorder

end UacDriver

import UacDriver.Scheduling
import UacDriver.Lib.Circular
import Mathlib.Logic.Function.Basic
import Mathlib.Data.List.Range

/-!
# The capture-derived packet layout FIFO

`implicitFrames_` with the cursors `implicitRead_` and `implicitWrite_`: every capture packet pushes its
frame count, every implicit-feedback OUT packet is sized from one entry. The cursors count packets of a
session and are never wrapped by the code, so they are naturals here. These are the operations run to
their end by one thread; `MetaFifoRace` splits them into their atomic steps.
-/

namespace UacDriver

open Circular

structure MetaFifo where
  implicitFrames : Nat → Nat := fun _ => 0
  implicitRead : Nat := 0
  implicitWrite : Nat := 0
  metadataFifoOverruns : Nat := 0

namespace MetaFifo

variable (f : MetaFifo)

/-- `index & (kImplicitFifoCapacity - 1)`. -/
def slot (i : Nat) : Nat := i &&& (kImplicitFifoCapacity - 1)

theorem slot_eq_mod (i : Nat) : slot i = i % kImplicitFifoCapacity :=
  Nat.and_two_pow_sub_one_eq_mod i 8

theorem slot_ne {i j : Nat} (hij : i < j) (hj : j < i + kImplicitFifoCapacity) : slot i ≠ slot j := by
  rw [slot_eq_mod, slot_eq_mod]; exact Circular.slot_ne hij hj

def entry (i : Nat) : Nat := f.implicitFrames (slot i)

def setEntry (i v : Nat) : MetaFifo := { f with implicitFrames := Function.update f.implicitFrames (slot i) v }

/-- The overflow branch of `onCapture`: a full FIFO drops all it holds and counts it once. -/
def makeRoom : MetaFifo :=
  if f.implicitWrite - f.implicitRead ≥ kImplicitFifoCapacity then
    { f with implicitRead := f.implicitWrite, metadataFifoOverruns := f.metadataFifoOverruns + 1 }
  else f

/-- The indices an overflow at this push drops. -/
def resync (f : MetaFifo) : List (Nat × Nat) :=
  if f.implicitWrite - f.implicitRead ≥ kImplicitFifoCapacity then [(f.implicitRead, f.implicitWrite)] else []

/-- One capture packet's frame count, as `onCapture` stores and publishes it. -/
def push (v : Nat) : MetaFifo :=
  let f := f.makeRoom
  { f.setEntry f.implicitWrite v with implicitWrite := f.implicitWrite + 1 }

/-- The next `count` entries, clamped to what one OUT packet may carry. -/
def frameCounts (count maxFrames : Nat) : List Nat :=
  (List.range count).map fun packet => min (f.entry (f.implicitRead + packet)) maxFrames

def take (count : Nat) : MetaFifo := { f with implicitRead := f.implicitRead + count }

@[simp] theorem setEntry_entry_self (i v : Nat) : (f.setEntry i v).entry i = v := by
  simp [entry, setEntry]

variable {f}

theorem setEntry_entry_of_lt {i j v : Nat} (hij : i < j) (hj : j < i + kImplicitFifoCapacity) :
    (f.setEntry j v).entry i = f.entry i := by
  simp [entry, setEntry, slot_ne hij hj]

@[simp] theorem setEntry_read (i v : Nat) : (f.setEntry i v).implicitRead = f.implicitRead := rfl

@[simp] theorem setEntry_write (i v : Nat) : (f.setEntry i v).implicitWrite = f.implicitWrite := rfl

@[simp] theorem makeRoom_write : f.makeRoom.implicitWrite = f.implicitWrite := by
  unfold makeRoom; split <;> rfl

@[simp] theorem makeRoom_entry (i : Nat) : f.makeRoom.entry i = f.entry i := by
  unfold makeRoom; split <;> rfl

@[simp] theorem push_write (v : Nat) : (f.push v).implicitWrite = f.implicitWrite + 1 := by simp [push]

@[simp] theorem push_read (v : Nat) : (f.push v).implicitRead = f.makeRoom.implicitRead := rfl

theorem makeRoom_read_le (h : f.implicitRead ≤ f.implicitWrite) : f.makeRoom.implicitRead ≤ f.implicitWrite := by
  unfold makeRoom; split
  · exact le_rfl
  · exact h

theorem makeRoom_read_ge (h : f.implicitRead ≤ f.implicitWrite) : f.implicitRead ≤ f.makeRoom.implicitRead := by
  unfold makeRoom; split
  · exact h
  · exact le_rfl

theorem makeRoom_room (h : f.implicitRead ≤ f.implicitWrite) :
    f.implicitWrite < f.makeRoom.implicitRead + kImplicitFifoCapacity := by
  unfold makeRoom; split
  · show f.implicitWrite < f.implicitWrite + kImplicitFifoCapacity
    simp [kImplicitFifoCapacity]
  · omega

/-- The FIFO holds exactly the last pushed counts: `pushed` lists every count of the session in order. -/
structure Holds (f : MetaFifo) (pushed : List Nat) : Prop where
  write_eq : f.implicitWrite = pushed.length
  read_le : f.implicitRead ≤ f.implicitWrite
  room : f.implicitWrite ≤ f.implicitRead + kImplicitFifoCapacity
  entries : ∀ i, f.implicitRead ≤ i → i < f.implicitWrite → pushed[i]? = some (f.entry i)

namespace Holds

/-- A session starts with both cursors at zero; the slots hold whatever they held. -/
theorem reset (slots : Nat → Nat) : Holds { implicitFrames := slots } [] :=
  ⟨rfl, le_rfl, Nat.zero_le _, fun _ _ h => absurd h (Nat.not_lt_zero _)⟩

theorem push {pushed : List Nat} (h : f.Holds pushed) (v : Nat) : (f.push v).Holds (pushed ++ [v]) := by
  have hle := makeRoom_read_le h.read_le
  have hge := makeRoom_read_ge h.read_le
  have hroom := makeRoom_room h.read_le
  refine ⟨by simp [h.write_eq], ?_, ?_, ?_⟩
  · simp only [push_read, push_write]; omega
  · simp only [push_read, push_write]; omega
  · intro i h₁ h₂
    simp only [push_read, push_write] at h₁ h₂
    have hf : (f.push v).entry i = (f.makeRoom.setEntry f.makeRoom.implicitWrite v).entry i := rfl
    rw [hf, makeRoom_write]
    rcases Nat.lt_or_ge i f.implicitWrite with hi | hi
    · rw [setEntry_entry_of_lt hi (by omega), makeRoom_entry,
        List.getElem?_append_left (by rw [← h.write_eq]; exact hi)]
      exact h.entries i (by omega) hi
    · obtain rfl : i = f.implicitWrite := by omega
      rw [setEntry_entry_self, h.write_eq]; simp

theorem take {pushed : List Nat} (h : f.Holds pushed) {count : Nat}
    (hc : f.implicitRead + count ≤ f.implicitWrite) : (f.take count).Holds pushed := by
  refine ⟨h.write_eq, hc, ?_, fun i h₁ h₂ => h.entries i (le_trans (Nat.le_add_right _ _) h₁) h₂⟩
  show f.implicitWrite ≤ f.implicitRead + count + kImplicitFifoCapacity
  have := h.room; omega

end Holds

end MetaFifo

end UacDriver
